/-
# What a run of a pattern tells about the text

A run of a sequence is a run of its first part and then one of its second, so what stands at a
place can be read off a run piece by piece: a literal says which characters are there.  A pattern
that begins with the start of the text runs nowhere else, and a search for it is one try.

Most that is asked of a match is a property of the place that it begins at (`Requires`).  It is
enough that the first part of a sequence requires it, so long patterns are opened only as far as
the part that matters.  Being `Anchored` is one such property.  The matches of a search come in
order and do not overlap (`pairwise_findAllFrom`); both are one induction on the text, and the
number of characters still to be passed over is what carries it from one match to the next.
-/
import CodeSurvey.Pattern.Search

namespace CodeSurvey.Pattern

variable {here out : Place × Groups}

theorem mem_runs_append {a b : Pattern} :
    out ∈ (a ++ b).runs here ↔ ∃ mid ∈ a.runs here, out ∈ b.runs mid :=
  List.mem_flatMap

theorem mem_runs_optional {a : Pattern} :
    out ∈ (optional a).runs here ↔ out ∈ a.runs here ∨ out = here := by
  rw [optional, runs, runs, List.mem_append, List.mem_singleton]

theorem mem_runs_textStart : out ∈ textStart.runs here ↔ here.1.offset = 0 ∧ out = here := by
  rw [runs]
  split
  · rename_i hstart
    rw [List.mem_singleton, and_iff_right hstart]
  · rename_i hstart
    simp only [hstart, List.not_mem_nil, false_and]

theorem mem_runs_wordEdge :
    out ∈ wordEdge.runs here ↔ here.1.atWordEdge = true ∧ out = here := by
  rw [runs]
  split
  · rename_i hedge
    rw [List.mem_singleton, and_iff_right hedge]
  · rename_i hedge
    exact ⟨fun h => absurd h List.not_mem_nil, fun h => absurd h.1 hedge⟩

/-- One character is taken, and it belongs to the class. -/
theorem rest_of_mem_one {p : Char → Bool} (h : out ∈ (one p).runs here) :
    ∃ c, here.1.rest = c :: out.1.rest ∧ p c = true := by
  obtain ⟨⟨offset, before, rest⟩, groups⟩ := here
  cases rest with
  | nil => simp [runs, Place.step?] at h
  | cons c rest =>
      simp only [runs, Place.step?] at h
      split at h
      · rename_i hc
        rw [Option.toList_some, List.map_singleton, List.mem_singleton] at h
        exact ⟨c, by rw [h], hc⟩
      · simp at h

theorem rest_of_mem_literal {text : String} (h : out ∈ (literal text).runs here) :
    here.1.rest = text.toList ++ out.1.rest := by
  unfold literal at h
  generalize text.toList = cs at h ⊢
  induction cs generalizing here with
  | nil =>
      rw [List.foldr_nil, runs, List.mem_singleton] at h
      rw [h]
      rfl
  | cons c cs ih =>
      obtain ⟨mid, hmid, hout⟩ := mem_runs_append.1 h
      obtain ⟨d, hrest, hd⟩ := rest_of_mem_one hmid
      rw [hrest, ih hout, beq_iff_eq.1 hd]
      rfl

/-! ## What a pattern requires of a place -/

/-- A pattern runs only at places of a kind. -/
def Requires (P : Place → Prop) (pattern : Pattern) : Prop :=
  ∀ here out, out ∈ pattern.runs here → P here.1

theorem Requires.append {P : Place → Prop} {a : Pattern} (h : Requires P a) (b : Pattern) :
    Requires P (a ++ b) := by
  intro here out hout
  obtain ⟨mid, hmid, -⟩ := mem_runs_append.1 hout
  exact h here mid hmid

/-- A pattern that runs at the start of a text only. -/
abbrev Anchored (pattern : Pattern) : Prop := Requires (fun place => place.offset = 0) pattern

theorem anchored_textStart : Anchored textStart :=
  fun _ _ h => (mem_runs_textStart.1 h).1

section Anchored

variable {pattern : Pattern}

theorem Anchored.matchAt?_eq_none (h : Anchored pattern) (place : Place)
    (hstart : place.offset ≠ 0) : pattern.matchAt? place = none := by
  have hnone : pattern.runs (place, []) = [] :=
    List.eq_nil_iff_forall_not_mem.2 (fun out hout => hstart (h (place, []) out hout))
  rw [matchAt?, hnone]
  rfl

theorem Anchored.findFrom_eq_none (h : Anchored pattern) :
    ∀ (text : List Char) (offset : Nat) (before : Option Char), offset ≠ 0 →
      pattern.findFrom offset before text = none
  | [], offset, before, hoffset => Anchored.matchAt?_eq_none h ⟨offset, before, []⟩ hoffset
  | c :: rest, offset, before, hoffset => by
      rw [findFrom, Anchored.matchAt?_eq_none h ⟨offset, before, c :: rest⟩ hoffset]
      exact Anchored.findFrom_eq_none h rest (offset + 1) (some c) (Nat.succ_ne_zero offset)

theorem Anchored.find?_eq (h : Anchored pattern) (text : List Char) :
    pattern.find? text = pattern.matchAt? (.start text) := by
  cases text with
  | nil => rfl
  | cons c rest =>
      rw [find?, findFrom,
        Anchored.findFrom_eq_none h rest (0 + 1) (some c) (Nat.succ_ne_zero 0)]
      unfold Place.start
      split
      · rename_i m hm
        rw [hm]
      · rename_i hm
        rw [hm]

theorem Anchored.requires_of_find? (h : Anchored pattern) {P : Place → Prop}
    (hP : Requires P pattern) {text : List Char} {m : Match} (hm : pattern.find? text = some m) :
    P (.start text) := by
  rw [Anchored.find?_eq h, matchAt?, Option.map_eq_some_iff] at hm
  obtain ⟨out, hhead, -⟩ := hm
  exact hP (.start text, []) out (List.mem_of_head? hhead)

end Anchored

/-! ## The order of matches -/

section Matches

variable {pattern : Pattern} {m : Match}

theorem start_of_matchAt? {place : Place} (h : pattern.matchAt? place = some m) :
    m.start = place.offset := by
  obtain ⟨out, -, rfl⟩ := Option.map_eq_some_iff.1 h
  rfl

/-- No match begins before the place that the search begins at, nor where the last match stands. -/
theorem le_start_of_mem_findAllFrom {skip offset : Nat} {before : Option Char}
    {text : List Char} (h : m ∈ pattern.findAllFrom skip offset before text) :
    offset + skip ≤ m.start := by
  induction text generalizing skip offset before with
  | nil => cases h
  | cons c rest ih =>
      rw [findAllFrom] at h
      split at h
      · have hlater := ih h
        omega
      · split at h
        · rename_i found hfound
          rcases List.mem_cons.1 h with rfl | h
          · rw [start_of_matchAt? hfound]
            dsimp only
            omega
          · have hlater := ih h
            omega
        · have hlater := ih h
          omega

theorem pairwise_findAllFrom (skip offset : Nat) (before : Option Char) (text : List Char) :
    (pattern.findAllFrom skip offset before text).Pairwise
      (fun m n => m.start < n.start ∧ m.stop ≤ n.start) := by
  induction text generalizing skip offset before with
  | nil => exact .nil
  | cons c rest ih =>
      rw [findAllFrom]
      split
      · exact ih _ _ _
      · split
        · rename_i found hfound
          refine .cons (fun n hn => ?_) (ih _ _ _)
          rw [start_of_matchAt? hfound]
          have hlater := le_start_of_mem_findAllFrom hn
          dsimp only
          omega
        · exact ih _ _ _

/-- Matches are found from left to right. -/
theorem pairwise_findAll (pattern : Pattern) (text : List Char) :
    (pattern.findAll text).Pairwise (fun m n => m.start < n.start) :=
  (pairwise_findAllFrom 0 0 none text).imp And.left

/-- No two matches overlap. -/
theorem apart_findAll (pattern : Pattern) (text : List Char) :
    (pattern.findAll text).Pairwise (fun m n => m.stop ≤ n.start) :=
  (pairwise_findAllFrom 0 0 none text).imp And.right

end Matches

end CodeSurvey.Pattern
