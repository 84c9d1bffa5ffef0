/-
# The preferred run of a pattern

The match of a pattern at a place is its first run.  What that is can be worked out piece by piece:
the first run of a sequence is the first run of its second part behind the first run of its first
part, a greedy repetition takes all it can, and an option that cannot be taken is left out.  So a
match is computed from what stands in the text, without going through the runs that are not
preferred.
-/
import CodeSurvey.Proofs.Pattern.Runs

namespace CodeSurvey

/-- The last character of a stretch, or the one before it if the stretch is empty. -/
def lastOf (before : Option Char) (taken : List Char) : Option Char :=
  taken.foldl (fun _ c => some c) before

theorem any_lastOf {p : Char → Bool} {before : Option Char} {taken : List Char}
    (hbefore : before.any p = false) (htaken : ∀ c ∈ taken, p c = false) :
    (lastOf before taken).any p = false := by
  induction taken generalizing before with
  | nil => exact hbefore
  | cons c taken ih =>
      obtain ⟨hc, hothers⟩ := List.forall_mem_cons.1 htaken
      exact ih hc hothers

/-- The place behind a stretch of a text. -/
def Place.past (place : Place) (taken rest : List Char) : Place :=
  ⟨place.offset + taken.length, lastOf place.before taken, rest⟩

theorem Place.past_nil (place : Place) : place.past [] place.rest = place := rfl

theorem Place.past_cons (place : Place) (c : Char) (taken rest : List Char) :
    place.past (c :: taken) rest =
      Place.past ⟨place.offset + 1, some c, taken ++ rest⟩ taken rest := by
  simp only [Place.past, lastOf, List.length_cons, List.foldl_cons, Nat.add_assoc,
    Nat.add_comm 1]

namespace Pattern

/-! ## First runs -/

def First (pattern : Pattern) (here out : Place × Groups) : Prop :=
  (pattern.runs here).head? = some out

namespace First

variable {a b : Pattern} {here mid out : Place × Groups} {place stop : Place}
  {groups inner : Groups}

theorem append (ha : First a here mid) (hb : First b mid out) : First (a ++ b) here out := by
  obtain ⟨more, hmore⟩ := List.head?_eq_some_iff.1 ha
  show (List.flatMap b.runs (a.runs here)).head? = some out
  rw [hmore, List.flatMap_cons, List.head?_append, hb]
  rfl

theorem group (n : Nat) (h : First a (place, groups) (stop, inner)) :
    First (group n a) (place, groups) (stop, (n, ⟨place, stop⟩) :: inner) := by
  show List.head? ((a.runs (place, groups)).map _) = _
  rw [List.head?_map, h]
  rfl

theorem wordEdge (h : here.1.atWordEdge = true) : First wordEdge here here := by
  rw [First, runs, if_pos h]
  rfl

/-- An option that cannot be taken is left out. -/
theorem leaveOut (h : a.runs here = []) : First (optional a) here here := by
  rw [First, optional, runs, h]
  rfl

theorem one {p : Char → Bool} {c : Char} {rest : List Char} (hrest : place.rest = c :: rest)
    (hc : p c = true) : First (one p) (place, groups) (place.past [c] rest, groups) := by
  rw [First, runs, Place.step?, hrest]
  simp [hc, Place.past, lastOf]

theorem head?_runEnds {p : Char → Bool} (taken : List Char) {rest : List Char}
    {passed : List Place} (hplace : place.rest = taken ++ rest) (htaken : ∀ c ∈ taken, p c = true)
    (hrest : ∀ c, rest.head? = some c → p c = false) :
    (runEnds p (taken ++ rest) place (place :: passed)).head? = some (place.past taken rest) := by
  induction taken generalizing place passed with
  | nil =>
      rw [List.nil_append] at hplace
      rw [List.nil_append, ← hplace, Place.past_nil]
      rw [← hplace] at hrest
      cases hplace' : place.rest with
      | nil => rfl
      | cons c rest => rw [runEnds, hrest c (by rw [hplace']; rfl)]; rfl
  | cons c taken ih =>
      obtain ⟨hc, hothers⟩ := List.forall_mem_cons.1 htaken
      rw [List.cons_append, runEnds, if_pos hc, Place.past_cons]
      exact ih rfl hothers

/-- A greedy repetition takes all the characters of its class. -/
theorem many {p : Char → Bool} {taken rest : List Char} (hplace : place.rest = taken ++ rest)
    (htaken : ∀ c ∈ taken, p c = true) (hrest : ∀ c, rest.head? = some c → p c = false) :
    First (many p) (place, groups) (place.past taken rest, groups) := by
  rw [First, runs, runsOf, List.head?_map]
  have hends : (runEnds p (taken ++ rest) place [place]).head? = some (place.past taken rest) :=
    head?_runEnds taken hplace htaken hrest
  rw [← hplace] at hends
  rw [hends]
  rfl

theorem matchAt?_eq (h : First a (place, []) (stop, groups)) :
    a.matchAt? place = some ⟨⟨place, stop⟩, groups⟩ := by
  rw [matchAt?, h]
  rfl

end First

/-! ## The first match -/

theorem matchAt?_eq_none_of_requires {P : Place → Prop} {pattern : Pattern}
    (h : Requires P pattern) {place : Place} (hplace : ¬P place) :
    pattern.matchAt? place = none := by
  have hnone : pattern.runs (place, []) = [] :=
    List.eq_nil_iff_forall_not_mem.2 (fun out hout => hplace (h (place, []) out hout))
  rw [matchAt?, hnone]
  rfl

/-- A search passes over characters that no match begins with. -/
theorem findAllFrom_append {p : Char → Bool} {pattern : Pattern}
    (hpattern : Requires (fun place => place.rest.head?.any p = true) pattern)
    (front rest : List Char) (hfront : ∀ c ∈ front, p c = false) (offset : Nat)
    (before : Option Char) :
    pattern.findAllFrom 0 offset before (front ++ rest) =
      pattern.findAllFrom 0 (offset + front.length) (lastOf before front) rest := by
  induction front generalizing offset before with
  | nil => rfl
  | cons c front ih =>
      obtain ⟨hc, hothers⟩ := List.forall_mem_cons.1 hfront
      have hnone : pattern.matchAt? ⟨offset, before, c :: (front ++ rest)⟩ = none :=
        matchAt?_eq_none_of_requires hpattern (by simp [hc])
      rw [List.cons_append, findAllFrom, if_neg (Nat.lt_irrefl 0), hnone]
      dsimp only
      rw [ih hothers, List.length_cons, Nat.add_assoc, Nat.add_comm 1]
      rfl

theorem findAllFrom_of_matchAt? {pattern : Pattern} {offset : Nat} {before : Option Char}
    {c : Char} {rest : List Char} {m : Match}
    (h : pattern.matchAt? ⟨offset, before, c :: rest⟩ = some m) :
    ∃ more, pattern.findAllFrom 0 offset before (c :: rest) = m :: more := by
  rw [findAllFrom, if_neg (Nat.lt_irrefl 0), h]
  exact ⟨_, rfl⟩

end Pattern

end CodeSurvey
