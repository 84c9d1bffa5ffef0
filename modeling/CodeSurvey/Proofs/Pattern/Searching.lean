/-
# A search from match to match

Behind a match a search goes on, and where none begins it moves on by a character.  So what it finds
can be told piece by piece (`findBehind_match`, `findBehind_pass`).  Of a class of characters it
finds the longest runs (`exists_match_iff_isRun`).

Matches are found from left to right, none over another.  So two of them are one or lie apart
(`apart_of_mem_findAll`), tokens that lie within matches stand in the same order
(`pairwise_map_findAll`), and what is found in order among other matches in order is a sublist of
them (`sublist_of_found`).
-/
import Mathlib.Data.List.Pairwise
import Mathlib.Data.List.Sort
import CodeSurvey.Proofs.Pattern.Places

namespace CodeSurvey.Pattern

def findBehind (pattern : Pattern) (front rest : List Char) : List Match :=
  pattern.findAllFrom 0 front.length (lastOf none front) rest

section Pieces

variable {pattern : Pattern} {front rest : List Char}

theorem findAllFrom_skip (pattern : Pattern) (front taken rest : List Char) :
    pattern.findAllFrom taken.length front.length (lastOf none front) (taken ++ rest) =
      pattern.findBehind (front ++ taken) rest := by
  induction taken generalizing front with
  | nil => rw [List.append_nil]; rfl
  | cons c taken ih =>
      have hnext := ih (front ++ [c])
      rw [List.length_append, lastOf_append, List.append_assoc] at hnext
      rw [List.length_cons, List.cons_append, findAllFrom, if_pos (Nat.succ_pos _),
        Nat.add_sub_cancel]
      exact hnext

theorem findBehind_match {c : Char} {taken : List Char} {m : Match}
    (h : pattern.matchAt? (Place.between front (c :: (taken ++ rest))) = some m)
    (hstop : m.stop = front.length + (taken.length + 1)) :
    pattern.findBehind front (c :: (taken ++ rest)) =
      m :: pattern.findBehind (front ++ c :: taken) rest := by
  have hfound : pattern.matchAt? ⟨front.length, lastOf none front, c :: (taken ++ rest)⟩ = some m :=
    h
  have hskip : m.stop - front.length - 1 = taken.length := by omega
  have hnext := findAllFrom_skip pattern (front ++ [c]) taken rest
  rw [List.length_append, lastOf_append, List.append_assoc] at hnext
  rw [findBehind, findAllFrom, if_neg (Nat.lt_irrefl 0), hfound]
  dsimp only
  rw [hskip]
  exact congrArg (m :: ·) hnext

theorem findBehind_cons {c : Char}
    (h : pattern.matchAt? (Place.between front (c :: rest)) = none) :
    pattern.findBehind front (c :: rest) = pattern.findBehind (front ++ [c]) rest := by
  have hnone : pattern.matchAt? ⟨front.length, lastOf none front, c :: rest⟩ = none := h
  rw [findBehind, findAllFrom, if_neg (Nat.lt_irrefl 0), hnone, findBehind, List.length_append,
    lastOf_append]
  rfl

theorem findBehind_stretch {P : Place → Prop} (hpattern : Requires P pattern)
    {stretch : List Char} (h : ∀ done c more, stretch = done ++ c :: more →
      ¬P (Place.between (front ++ done) (c :: (more ++ rest)))) :
    pattern.findBehind front (stretch ++ rest) = pattern.findBehind (front ++ stretch) rest := by
  induction stretch generalizing front with
  | nil => rw [List.nil_append, List.append_nil]
  | cons c stretch ih =>
      have hhere := h [] c stretch rfl
      rw [List.append_nil] at hhere
      have hlater : ∀ done d more, stretch = done ++ d :: more →
          ¬P (Place.between (front ++ [c] ++ done) (d :: (more ++ rest))) := by
        intro done d more hsplit
        have hplace := h (c :: done) d more (by rw [hsplit]; rfl)
        rwa [List.append_cons] at hplace
      rw [List.cons_append, findBehind_cons (matchAt?_eq_none_of_requires hpattern hhere),
        ih hlater, List.append_assoc]
      rfl

theorem findBehind_pass {p : Char → Bool}
    (hpattern : Requires (fun place => place.rest.head?.any p = true) pattern)
    {stretch : List Char} (h : ∀ c ∈ stretch, p c = false) :
    pattern.findBehind front (stretch ++ rest) = pattern.findBehind (front ++ stretch) rest := by
  rw [findBehind, findAllFrom_append hpattern stretch rest h, findBehind, List.length_append,
    lastOf_append]

end Pieces

/-! ## Runs of a class -/

/-- A longest run of a class in a text: characters of the class, with none in front of them and none
behind. -/
def IsRun (p : Char → Bool) (text run : List Char) : Prop :=
  ∃ front back, text = front ++ (run ++ back) ∧ run ≠ [] ∧ (∀ c ∈ run, p c = true) ∧
    front.getLast?.any p = false ∧ back.head?.any p = false

theorem IsRun.ne_nil {p : Char → Bool} {text run : List Char} (h : IsRun p text run) :
    run ≠ [] := by
  obtain ⟨-, -, -, hne, -⟩ := h
  exact hne

section Runs

variable {p : Char → Bool} {front : List Char}

theorem head?_dropWhile_any (p : Char → Bool) (text : List Char) :
    (text.dropWhile p).head?.any p = false := by
  have hnot := List.head?_dropWhile_not p text
  cases hhead : (text.dropWhile p).head? with
  | none => rfl
  | some c =>
      rw [hhead] at hnot
      exact hnot

theorem matchAt?_some1 {c : Char} {taken rest : List Char} (hc : p c = true)
    (htaken : ∀ d ∈ taken, p d = true) (hrest : rest.head?.any p = false) (front : List Char) :
    (some1 p).matchAt? (Place.between front (c :: (taken ++ rest))) =
      some ⟨⟨Place.between front (c :: taken ++ rest),
        Place.between (front ++ c :: taken) rest⟩, []⟩ :=
  (first_some1 (List.forall_mem_cons.2 ⟨hc, htaken⟩) (List.cons_ne_nil c taken) hrest front
    []).matchAt?_eq

theorem matchAt?_some1_eq_none {c : Char} {rest : List Char} (hc : p c = false) :
    (some1 p).matchAt? (Place.between front (c :: rest)) = none := by
  have hbegins : Requires (fun place => place.rest.head?.any p = true) (one p) := by
    intro here out hout
    obtain ⟨d, hrest, hd⟩ := rest_of_mem_one hout
    rw [hrest]
    exact hd
  refine matchAt?_eq_none_of_requires (hbegins.append (many p)) ?_
  exact Bool.eq_false_iff.1 hc

/-- What is found is a longest run, if the search does not set in within one. -/
theorem isRun_of_mem_findBehind {m : Match} : ∀ front rest : List Char,
    front.getLast?.any p = false ∨ rest.head?.any p = false →
      m ∈ (some1 p).findBehind front rest → IsRun p (front ++ rest) m.text
  | _, [], _, h => nomatch h
  | front, c :: rest, houtside, h => by
      cases hc : p c with
      | false =>
          have hlast : (front ++ [c]).getLast?.any p = false := by
            rw [List.getLast?_concat]
            exact hc
          rw [findBehind_cons (matchAt?_some1_eq_none hc)] at h
          have hrun := isRun_of_mem_findBehind (front ++ [c]) rest (.inl hlast) h
          rwa [List.append_assoc] at hrun
      | true =>
          -- the run begins here, and the search goes on at its end
          have hfront : front.getLast?.any p = false :=
            houtside.resolve_right (fun hhead => Bool.false_ne_true (hhead.symm.trans hc))
          have htaken : ∀ d ∈ rest.takeWhile p, p d = true := fun d hd => List.mem_takeWhile_imp hd
          have hback := head?_dropWhile_any p rest
          have hrest : rest = rest.takeWhile p ++ rest.dropWhile p :=
            List.takeWhile_append_dropWhile.symm
          have hmatch := matchAt?_some1 hc htaken hback front
          rw [hrest, findBehind_match hmatch (List.length_append)] at h
          rcases List.mem_cons.1 h with rfl | h
          · have htext := Span.text_between front (c :: rest.takeWhile p) (rest.dropWhile p)
            refine ⟨front, rest.dropWhile p, ?_, ?_, ?_, hfront, hback⟩
            · rw [Match.text, htext, List.cons_append, ← hrest]
            · rw [Match.text, htext]
              exact List.cons_ne_nil _ _
            · rw [Match.text, htext]
              exact List.forall_mem_cons.2 ⟨hc, htaken⟩
          · have hrun := isRun_of_mem_findBehind _ (rest.dropWhile p) (.inr hback) h
            rwa [List.append_assoc, List.cons_append, ← hrest] at hrun
termination_by _ rest => rest.length
decreasing_by
  · exact Nat.lt_succ_self _
  · exact Nat.lt_succ_of_le (List.length_dropWhile_le p rest)

/-- A match takes characters of the class only, so none comes past one that is no such character. -/
theorem stop_le_of_matchAt?_some1 {more back : List Char} {found : Match}
    (h : (some1 p).matchAt? (Place.between front (more ++ back)) = some found) (hne : more ≠ [])
    (hlast : more.getLast?.any p = false) : found.stop ≤ front.length + more.length := by
  have hover : (some1 p).Over (p · = true) := ⟨fun _ hd => hd, fun _ hd => hd⟩
  obtain ⟨out, hfirst, rfl⟩ := Option.map_eq_some_iff.1 h
  obtain ⟨taken, rest, hrest, hout, htaken⟩ :=
    between_of_mem_runs hover (List.mem_of_head? hfirst)
  have hstop : out.1.offset = front.length + taken.length := by
    rw [hout]
    exact List.length_append
  show out.1.offset ≤ _
  rw [hstop]
  by_contra hlong
  have hwithin : more <+: taken :=
    List.prefix_of_prefix_length_le ⟨back, rfl⟩ ⟨rest, hrest.symm⟩ (by omega)
  have hmem := List.getLast_mem hne
  rw [List.getLast?_eq_some_getLast hne, Option.any_some, htaken _ (hwithin.subset hmem)] at hlast
  cases hlast

theorem mem_findAllFrom_of_last {skip : Nat} {more back : List Char} {m : Match}
    (hm : (some1 p).matchAt? (Place.between (front ++ more) back) = some m) (hback : back ≠ [])
    (hlast : more.getLast?.any p = false) (hskip : skip ≤ more.length) :
    m ∈ (some1 p).findAllFrom skip front.length (lastOf none front) (more ++ back) := by
  induction more generalizing skip front with
  | nil =>
      rw [List.append_nil] at hm
      obtain ⟨c, rest, rfl⟩ := List.exists_cons_of_ne_nil hback
      obtain ⟨others, hfound⟩ := findAllFrom_of_matchAt? hm
      rw [Nat.le_zero.1 hskip, List.nil_append, hfound]
      exact List.mem_cons_self
  | cons c more ih =>
      have hmore : more.getLast?.any p = false := by
        cases more with
        | nil => rfl
        | cons d more => rwa [List.getLast?_cons_cons] at hlast
      have hnext : ∀ skip, skip ≤ more.length →
          m ∈ (some1 p).findAllFrom skip (front.length + 1) (some c) (more ++ back) := by
        intro skip hle
        have hplace : (some1 p).matchAt? (Place.between (front ++ [c] ++ more) back) = some m := by
          rw [List.append_assoc]
          exact hm
        have hthere := ih hplace hmore hle
        rwa [List.length_append, lastOf_append] at hthere
      rw [List.length_cons] at hskip
      rw [List.cons_append, findAllFrom]
      split
      · exact hnext _ (by omega)
      · split
        · rename_i found hfound
          have hplace : (some1 p).matchAt? (Place.between front (c :: more ++ back)) =
              some found := hfound
          have hstop := stop_le_of_matchAt?_some1 hplace (List.cons_ne_nil c more) hlast
          rw [List.length_cons] at hstop
          exact List.mem_cons_of_mem _ (hnext _ (by omega))
        · exact hnext 0 (Nat.zero_le _)

/-- **A search for a class finds its longest runs.** -/
theorem exists_match_iff_isRun {text run : List Char} :
    (∃ m ∈ (some1 p).findAll text, m.text = run) ↔ IsRun p text run := by
  constructor
  · rintro ⟨m, hm, rfl⟩
    exact isRun_of_mem_findBehind [] text (.inl rfl) hm
  · rintro ⟨front, back, rfl, hne, hrun, hfront, hback⟩
    obtain ⟨c, taken, rfl⟩ := List.exists_cons_of_ne_nil hne
    obtain ⟨hc, htaken⟩ := List.forall_mem_cons.1 hrun
    have hfound := matchAt?_some1 hc htaken hback front
    rw [← List.nil_append front] at hfound
    exact ⟨_, mem_findAllFrom_of_last hfound (List.cons_ne_nil _ _) hfront (Nat.zero_le _),
      Span.text_between front (c :: taken) back⟩

end Runs

/-! ## The order of matches -/

section Order

variable {pattern : Pattern} {text : List Char} {m n : Match}

theorem nodup_of_pairwise_start {ms : List Match} (h : ms.Pairwise (fun m n => m.start < n.start)) :
    ms.Nodup :=
  h.imp (fun hlt heq => by rw [heq] at hlt; exact Nat.lt_irrefl _ hlt)

/-- Two matches of a search are one, or one ends where the other has not begun. -/
theorem apart_of_mem_findAll (hm : m ∈ pattern.findAll text) (hn : n ∈ pattern.findAll text)
    (hne : m ≠ n) : m.stop ≤ n.start ∨ n.stop ≤ m.start := by
  have hsymm : Std.Symm (fun m n : Match => m.stop ≤ n.start ∨ n.stop ≤ m.start) :=
    ⟨fun _ _ => Or.symm⟩
  have hapart : (pattern.findAll text).Pairwise (fun m n => m.stop ≤ n.start ∨ n.stop ≤ m.start) :=
    (apart_findAll pattern text).imp Or.inl
  exact hapart.forall hm hn hne

theorem pairwise_map_findAll {f : Match → Match}
    (h : ∀ m ∈ pattern.findAll text, m.start ≤ (f m).start ∧ (f m).start < m.stop) :
    ((pattern.findAll text).map f).Pairwise (fun m n => m.start < n.start) := by
  refine List.pairwise_map.2 ((apart_findAll pattern text).imp_of_mem ?_)
  intro m n hm hn hapart
  have hm := (h m hm).2
  have hn := (h n hn).1
  omega

theorem sublist_of_found {own found : List Match}
    (hown : own.Pairwise (fun m n => m.start < n.start))
    (hfound : found.Pairwise (fun m n => m.start < n.start)) (hsub : own ⊆ found) :
    own.Sublist found := by
  have hasymm : Std.Antisymm (fun m n : Match => m.start < n.start) :=
    ⟨fun m n hmn hnm => absurd hmn (Nat.lt_asymm hnm)⟩
  have hnodup := nodup_of_pairwise_start hown
  exact List.sublist_of_subperm_of_pairwise (List.subperm_of_subset hnodup hsub) hown hfound

end Order

/-! ## Parts of a match -/

theorem parts_of_matchAt?_group {a b : Pattern} {n : Nat} {place : Place} {m : Match}
    (h : (a ++ group n b).matchAt? place = some m) :
    ∃ start groups out, (start, groups) ∈ a.runs (place, []) ∧ First b (start, groups) out ∧
      m.span = ⟨place, out.1⟩ ∧ m.group? n = some ⟨start, out.1⟩ := by
  obtain ⟨⟨stop, groups⟩, hfirst, rfl⟩ := Option.map_eq_some_iff.1 h
  have hflat : ((a.runs (place, [])).flatMap (group n b).runs).head? = some (stop, groups) := hfirst
  rw [List.head?_flatMap] at hflat
  obtain ⟨⟨start, before⟩, hstart, hgroup⟩ := List.exists_of_findSome?_eq_some hflat
  have hmap : ((b.runs (start, before)).map _).head? = some (stop, groups) := hgroup
  rw [List.head?_map, Option.map_eq_some_iff] at hmap
  obtain ⟨inner, hinner, hout⟩ := hmap
  obtain ⟨rfl, rfl⟩ := Prod.mk.inj hout
  exact ⟨start, before, inner, hstart, hinner, rfl, by simp [Match.group?]⟩

theorem between_of_mem_char {c : Char} {front rest : List Char} {groups : Groups}
    {out : Place × Groups} (h : out ∈ (char c).runs (Place.between front rest, groups)) :
    ∃ back, rest = c :: back ∧ out.1 = Place.between (front ++ [c]) back := by
  have hover : (char c).Over (· = c) := fun _ hd => beq_iff_eq.1 hd
  obtain ⟨taken, back, rfl, hout, -⟩ := between_of_mem_runs hover h
  obtain ⟨d, hrest, hd⟩ := rest_of_mem_one h
  rw [hout, beq_iff_eq.1 hd] at hrest
  have hsplit : taken ++ back = [c] ++ back := hrest
  obtain rfl := List.append_cancel_right hsplit
  exact ⟨back, rfl, hout⟩

end CodeSurvey.Pattern
