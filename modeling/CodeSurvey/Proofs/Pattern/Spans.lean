/-
# A match is a piece of the text

What a run takes stands between its two places (`Place.Takes`), so the text of a match, or of a
group it passed through, is a piece of the text that was searched.  Which characters a piece may
hold is read off the pattern: `Over` bounds what a pattern takes, `GroupOver` what it takes within
a group.  Both are carried through the runs by induction on the pattern.
-/
import Mathlib.Data.List.TakeWhile
import CodeSurvey.Pattern.Search

namespace CodeSurvey

/-- From one place to another, taking these characters. -/
structure Place.Takes (here : Place) (taken : List Char) (there : Place) : Prop where
  rest : here.rest = taken ++ there.rest
  offset : there.offset = here.offset + taken.length

namespace Place.Takes

theorem refl (here : Place) : here.Takes [] here :=
  ⟨rfl, rfl⟩

theorem trans {here there beyond : Place} {taken more : List Char} (h : here.Takes taken there)
    (h' : there.Takes more beyond) : here.Takes (taken ++ more) beyond :=
  ⟨by rw [h.rest, h'.rest, List.append_assoc],
    by rw [h'.offset, h.offset, List.length_append, Nat.add_assoc]⟩

theorem cons {here there : Place} {c : Char} {rest taken : List Char}
    (hrest : here.rest = c :: rest) (h : Place.Takes ⟨here.offset + 1, some c, rest⟩ taken there) :
    here.Takes (c :: taken) there :=
  ⟨by rw [hrest, List.cons_append, ← h.rest],
    by rw [h.offset, List.length_cons, Nat.add_assoc, Nat.add_comm 1]⟩

end Place.Takes

theorem Span.text_eq {s : Span} {taken : List Char} (h : s.start.Takes taken s.stop) :
    s.text = taken := by
  rw [Span.text, h.rest, h.offset, Nat.add_sub_cancel_left, List.take_left]

/-- A stretch of a text, all of one class. -/
def Span.Within (text : List Char) (P : Char → Prop) (s : Span) : Prop :=
  ∃ front taken, (Place.start text).Takes front s.start ∧ s.start.Takes taken s.stop ∧
    ∀ c ∈ taken, P c

namespace Span.Within

variable {text : List Char} {P : Char → Prop} {s : Span}

theorem text_isInfix (h : s.Within text P) : s.text <:+: text := by
  obtain ⟨front, taken, hfront, htaken, -⟩ := h
  refine ⟨front, s.stop.rest, ?_⟩
  rw [Span.text_eq htaken, List.append_assoc, ← htaken.rest]
  exact hfront.rest.symm

theorem forall_text (h : s.Within text P) : ∀ c ∈ s.text, P c := by
  obtain ⟨front, taken, hfront, htaken, hP⟩ := h
  rwa [Span.text_eq htaken]

end Span.Within

namespace Pattern

/-! ## The characters a pattern takes -/

/-- Whether all characters that a pattern takes are of a class. -/
def Over (P : Char → Prop) : Pattern → Prop
  | one p | many p | few p => ∀ c, p c = true → P c
  | seq a b | either a b => a.Over P ∧ b.Over P
  | rounds a | group _ a => a.Over P
  | empty | wordEdge | textStart | textEnd => True

def groupsOf (n : Nat) : Pattern → List Pattern
  | group k a => (if k = n then [a] else []) ++ a.groupsOf n
  | seq a b | either a b => a.groupsOf n ++ b.groupsOf n
  | rounds a => a.groupsOf n
  | _ => []

/-- Whether all characters that a pattern takes within a group are of a class. -/
def GroupOver (n : Nat) (P : Char → Prop) (pattern : Pattern) : Prop :=
  ∀ a ∈ pattern.groupsOf n, a.Over P

theorem over_true (pattern : Pattern) : pattern.Over (fun _ => True) := by
  induction pattern with
  | seq a b iha ihb | either a b iha ihb => exact ⟨iha, ihb⟩
  | rounds a ih | group n a ih => exact ih
  | one p | many p | few p => exact fun _ _ => trivial
  | empty | wordEdge | textStart | textEnd => trivial

theorem groupOver_true (n : Nat) (pattern : Pattern) : pattern.GroupOver n (fun _ => True) :=
  fun a _ => over_true a

theorem groupOver_seq {n : Nat} {P : Char → Prop} {a b : Pattern} :
    (seq a b).GroupOver n P ↔ a.GroupOver n P ∧ b.GroupOver n P :=
  List.forall_mem_append

theorem groupOver_either {n : Nat} {P : Char → Prop} {a b : Pattern} :
    (either a b).GroupOver n P ↔ a.GroupOver n P ∧ b.GroupOver n P :=
  List.forall_mem_append

theorem groupOver_group {n k : Nat} {P : Char → Prop} {a : Pattern} :
    (group k a).GroupOver n P ↔ (k = n → a.Over P) ∧ a.GroupOver n P := by
  refine List.forall_mem_append.trans (and_congr_left' ?_)
  split
  · rename_i hk
    rw [List.forall_mem_singleton, forall_prop_of_true hk]
  · rename_i hk
    exact ⟨fun _ h => absurd h hk, fun _ _ h => absurd h List.not_mem_nil⟩

theorem over_identifier : identifier.Over (· ≠ ' ') := by
  refine ⟨fun c hc => ?_, fun c hc => ?_⟩
  · rintro rfl
    exact absurd hc (by decide)
  · rintro rfl
    exact absurd hc (by decide)

/-! ## Induction on runs -/

theorem takes_of_mem_runEnds {p : Char → Bool} {text : List Char} {here there : Place}
    {passed : List Place} (hhere : here.rest = text) (h : there ∈ runEnds p text here passed) :
    there ∈ passed ∨ ∃ taken, here.Takes taken there ∧ ∀ c ∈ taken, p c = true := by
  induction text generalizing here passed with
  | nil => exact .inl h
  | cons c rest ih =>
      rw [runEnds] at h
      split at h
      · rename_i hc
        rcases ih rfl h with hpassed | ⟨taken, htaken, hp⟩
        · rcases List.mem_cons.1 hpassed with rfl | hpassed
          · exact .inr ⟨[c], .cons hhere (.refl _), by simpa using hc⟩
          · exact .inl hpassed
        · exact .inr ⟨c :: taken, htaken.cons hhere, List.forall_mem_cons.2 ⟨hc, hp⟩⟩
      · exact .inl h

theorem takes_of_mem_runsOf {p : Char → Bool} {here there : Place} (h : there ∈ runsOf p here) :
    ∃ taken, here.Takes taken there ∧ ∀ c ∈ taken, p c = true := by
  rcases takes_of_mem_runEnds rfl h with hhere | htaken
  · rw [List.mem_singleton.1 hhere]
    exact ⟨[], .refl here, fun _ hc => absurd hc List.not_mem_nil⟩
  · exact htaken

theorem takes_of_mem_one {p : Char → Bool} {here out : Place × Groups}
    (h : out ∈ (one p).runs here) :
    ∃ c, here.1.Takes [c] out.1 ∧ p c = true ∧ out.2 = here.2 := by
  obtain ⟨place, hplace, rfl⟩ := List.mem_map.1 h
  have hstep := Option.mem_toList.1 hplace
  unfold Place.step? at hstep
  split at hstep
  · rename_i c rest hrest
    split at hstep
    · rename_i hc
      rw [← Option.some.inj hstep]
      exact ⟨c, .cons hrest (.refl _), hc, rfl⟩
    · cases hstep
  · cases hstep

theorem takes_of_mem_many {p : Char → Bool} {here out : Place × Groups}
    (h : out ∈ (many p).runs here) :
    ∃ taken, here.1.Takes taken out.1 ∧ (∀ c ∈ taken, p c = true) ∧ out.2 = here.2 := by
  obtain ⟨place, hplace, rfl⟩ := List.mem_map.1 h
  obtain ⟨taken, htaken, hp⟩ := takes_of_mem_runsOf hplace
  exact ⟨taken, htaken, hp, rfl⟩

theorem mem_runs_group {n : Nat} {a : Pattern} {here out : Place × Groups} :
    out ∈ (group n a).runs here ↔
      ∃ inner ∈ a.runs here, out = (inner.1, (n, ⟨here.1, inner.1⟩) :: inner.2) := by
  constructor
  · intro h
    obtain ⟨inner, hinner, rfl⟩ := List.mem_map.1 h
    exact ⟨inner, hinner, rfl⟩
  · rintro ⟨inner, hinner, rfl⟩
    exact List.mem_map.2 ⟨inner, hinner, rfl⟩

/-- Rounds of a step lead where single steps do, as far as a relation can tell that puts steps
together. -/
theorem roundsOf_induction {R : Place × Groups → Place × Groups → Prop}
    {step : Place × Groups → List (Place × Groups)} (hrefl : ∀ here, R here here)
    (htrans : ∀ here mid out, R here mid → R mid out → R here out)
    (hstep : ∀ here, ∀ out ∈ step here, R here out) :
    ∀ fuel here, ∀ out ∈ roundsOf step fuel here, R here out := by
  intro fuel
  induction fuel with
  | zero =>
      intro here out h
      rw [List.mem_singleton.1 h]
      exact hrefl here
  | succ fuel ih =>
      intro here out h
      rcases List.mem_append.1 h with h | h
      · obtain ⟨mid, hmid, hout⟩ := List.mem_flatMap.1 h
        exact htrans _ mid _ (hstep _ mid (List.mem_filter.1 hmid).1) (ih mid out hout)
      · rw [List.mem_singleton.1 h]
        exact hrefl here

theorem takes_of_mem_runs {P : Char → Prop} {pattern : Pattern} (hP : pattern.Over P)
    {here out : Place × Groups} (h : out ∈ pattern.runs here) :
    ∃ taken, here.1.Takes taken out.1 ∧ ∀ c ∈ taken, P c := by
  have hnothing : ∀ here : Place, ∃ taken, here.Takes taken here ∧ ∀ c ∈ taken, P c :=
    fun here => ⟨[], .refl here, fun _ hc => absurd hc List.not_mem_nil⟩
  have htogether : ∀ here mid out : Place × Groups,
      (∃ taken, here.1.Takes taken mid.1 ∧ ∀ c ∈ taken, P c) →
      (∃ taken, mid.1.Takes taken out.1 ∧ ∀ c ∈ taken, P c) →
      ∃ taken, here.1.Takes taken out.1 ∧ ∀ c ∈ taken, P c := by
    rintro here mid out ⟨taken, htaken, hP⟩ ⟨more, hmore, hP'⟩
    exact ⟨taken ++ more, htaken.trans hmore, List.forall_mem_append.2 ⟨hP, hP'⟩⟩
  induction pattern generalizing here out with
  | empty =>
      rw [List.mem_singleton.1 h]
      exact hnothing here.1
  | one p =>
      obtain ⟨c, hc, hp, -⟩ := takes_of_mem_one h
      exact ⟨[c], hc, List.forall_mem_singleton.2 (hP c hp)⟩
  | many p =>
      obtain ⟨taken, htaken, hp, -⟩ := takes_of_mem_many h
      exact ⟨taken, htaken, fun c hc => hP c (hp c hc)⟩
  | few p =>
      obtain ⟨place, hplace, rfl⟩ := List.mem_map.1 h
      obtain ⟨taken, htaken, hp⟩ := takes_of_mem_runsOf (List.mem_reverse.1 hplace)
      exact ⟨taken, htaken, fun c hc => hP c (hp c hc)⟩
  | seq a b iha ihb =>
      obtain ⟨mid, hmid, hout⟩ := List.mem_flatMap.1 h
      exact htogether here mid out (iha hP.1 hmid) (ihb hP.2 hout)
  | either a b iha ihb =>
      rcases List.mem_append.1 h with h | h
      · exact iha hP.1 h
      · exact ihb hP.2 h
  | rounds a ih =>
      exact roundsOf_induction (fun here => hnothing here.1) htogether
        (fun here out hout => ih hP hout) _ here out h
  | group n a ih =>
      obtain ⟨inner, hinner, rfl⟩ := mem_runs_group.1 h
      have hwithin := ih hP hinner
      exact hwithin
  | wordEdge | textStart | textEnd =>
      rw [runs] at h
      split at h
      · rw [List.mem_singleton.1 h]
        exact hnothing here.1
      · cases h

theorem groups_of_mem_runs {text : List Char} {n : Nat} {P : Char → Prop} {pattern : Pattern}
    (hP : pattern.GroupOver n P) {here out : Place × Groups} (h : out ∈ pattern.runs here)
    (hhere : ∃ front, (Place.start text).Takes front here.1)
    (hgroups : ∀ g ∈ here.2, g.1 = n → g.2.Within text P) :
    ∀ g ∈ out.2, g.1 = n → g.2.Within text P := by
  have hahead : ∀ {pattern : Pattern} {here out : Place × Groups}, out ∈ pattern.runs here →
      (∃ front, (Place.start text).Takes front here.1) →
      ∃ front, (Place.start text).Takes front out.1 := by
    rintro pattern here out hout ⟨front, hfront⟩
    obtain ⟨taken, htaken, -⟩ := takes_of_mem_runs (over_true pattern) hout
    exact ⟨front ++ taken, hfront.trans htaken⟩
  induction pattern generalizing here out with
  | empty =>
      rw [List.mem_singleton.1 h]
      exact hgroups
  | one p | many p | few p =>
      obtain ⟨place, -, rfl⟩ := List.mem_map.1 h
      exact hgroups
  | seq a b iha ihb =>
      obtain ⟨mid, hmid, hout⟩ := List.mem_flatMap.1 h
      obtain ⟨ha, hb⟩ := groupOver_seq.1 hP
      exact ihb hb hout (hahead hmid hhere) (iha ha hmid hhere hgroups)
  | either a b iha ihb =>
      obtain ⟨ha, hb⟩ := groupOver_either.1 hP
      rcases List.mem_append.1 h with h | h
      · exact iha ha h hhere hgroups
      · exact ihb hb h hhere hgroups
  | rounds a ih =>
      -- The place is carried along, for the groups of a round say nothing of where it ends.
      have hrounds : ∀ fuel here, ∀ out ∈ roundsOf a.runs fuel here,
          (∃ front, (Place.start text).Takes front here.1) →
          (∀ g ∈ here.2, g.1 = n → g.2.Within text P) →
          (∃ front, (Place.start text).Takes front out.1) ∧
            ∀ g ∈ out.2, g.1 = n → g.2.Within text P := by
        refine roundsOf_induction (fun _ hhere hgroups => ⟨hhere, hgroups⟩) ?_ ?_
        · intro here mid out hmid hout hhere hgroups
          exact hout (hmid hhere hgroups).1 (hmid hhere hgroups).2
        · intro here out hout hhere hgroups
          exact ⟨hahead hout hhere, ih hP hout hhere hgroups⟩
      exact (hrounds _ here out h hhere hgroups).2
  | group k a ih =>
      obtain ⟨inner, hinner, rfl⟩ := mem_runs_group.1 h
      obtain ⟨hgroup, ha⟩ := groupOver_group.1 hP
      intro g hg hn
      rcases List.mem_cons.1 hg with rfl | hg
      · obtain ⟨front, hfront⟩ := hhere
        obtain ⟨taken, htaken, hall⟩ := takes_of_mem_runs (hgroup hn) hinner
        exact ⟨front, taken, hfront, htaken, hall⟩
      · exact ih ha hinner hhere hgroups g hg hn
  | wordEdge | textStart | textEnd =>
      rw [runs] at h
      split at h
      · rw [List.mem_singleton.1 h]
        exact hgroups
      · cases h

/-! ## Matches -/

/-- A match of a pattern in a text: a run from a place of the text. -/
structure IsMatch (pattern : Pattern) (text : List Char) (m : Match) : Prop where
  start : ∃ front, (Place.start text).Takes front m.span.start
  run : (m.span.stop, m.groups) ∈ pattern.runs (m.span.start, [])

theorem isMatch_of_matchAt? {pattern : Pattern} {text front : List Char} {place : Place}
    {m : Match} (hplace : (Place.start text).Takes front place)
    (h : pattern.matchAt? place = some m) : IsMatch pattern text m := by
  obtain ⟨out, hout, rfl⟩ := Option.map_eq_some_iff.1 h
  exact ⟨⟨front, hplace⟩, List.mem_of_head? hout⟩

theorem isMatch_of_findFrom {pattern : Pattern} {text front rest : List Char} {offset : Nat}
    {before : Option Char} {m : Match}
    (hplace : (Place.start text).Takes front ⟨offset, before, rest⟩)
    (h : pattern.findFrom offset before rest = some m) : IsMatch pattern text m := by
  induction rest generalizing front offset before with
  | nil => exact isMatch_of_matchAt? hplace h
  | cons c rest ih =>
      rw [findFrom] at h
      split at h
      · rename_i found hfound
        rw [← Option.some.inj h]
        exact isMatch_of_matchAt? hplace hfound
      · exact ih (hplace.trans (.cons rfl (.refl _))) h

theorem isMatch_of_find? {pattern : Pattern} {text : List Char} {m : Match}
    (h : pattern.find? text = some m) : IsMatch pattern text m :=
  isMatch_of_findFrom (.refl _) h

theorem isMatch_of_mem_findAllFrom {pattern : Pattern} {text front rest : List Char}
    {skip offset : Nat} {before : Option Char} {m : Match}
    (hplace : (Place.start text).Takes front ⟨offset, before, rest⟩)
    (h : m ∈ pattern.findAllFrom skip offset before rest) : IsMatch pattern text m := by
  induction rest generalizing front skip offset before with
  | nil => cases h
  | cons c rest ih =>
      have hnext := hplace.trans (.cons rfl (.refl _))
      rw [findAllFrom] at h
      split at h
      · exact ih hnext h
      · split at h
        · rename_i found hfound
          rcases List.mem_cons.1 h with rfl | h
          · exact isMatch_of_matchAt? hplace hfound
          · exact ih hnext h
        · exact ih hnext h

theorem isMatch_of_mem_findAll {pattern : Pattern} {text : List Char} {m : Match}
    (h : m ∈ pattern.findAll text) : IsMatch pattern text m :=
  isMatch_of_mem_findAllFrom (.refl _) h

namespace IsMatch

variable {pattern : Pattern} {text : List Char} {m : Match}

theorem text_isInfix (h : IsMatch pattern text m) : m.text <:+: text := by
  obtain ⟨front, hfront⟩ := h.start
  obtain ⟨taken, htaken, hall⟩ := takes_of_mem_runs (over_true pattern) h.run
  exact Span.Within.text_isInfix (P := fun _ => True) ⟨front, taken, hfront, htaken, hall⟩

theorem within_of_group? (h : IsMatch pattern text m) {n : Nat} {P : Char → Prop}
    (hP : pattern.GroupOver n P) {s : Span} (hs : m.group? n = some s) : s.Within text P := by
  obtain ⟨g, hg, rfl⟩ := Option.map_eq_some_iff.1 hs
  have hn := List.find?_some hg
  exact groups_of_mem_runs hP h.run h.start (fun _ hg => absurd hg List.not_mem_nil) g
    (List.mem_of_find?_eq_some hg) (beq_iff_eq.1 hn)

theorem groupText_isInfix (h : IsMatch pattern text m) (n : Nat) : m.groupText n <:+: text := by
  unfold Match.groupText
  split
  · rename_i s hs
    exact (h.within_of_group? (groupOver_true n pattern) hs).text_isInfix
  · exact List.nil_infix

theorem forall_groupText (h : IsMatch pattern text m) {n : Nat} {P : Char → Prop}
    (hP : pattern.GroupOver n P) : ∀ c ∈ m.groupText n, P c := by
  unfold Match.groupText
  split
  · rename_i s hs
    exact (h.within_of_group? hP hs).forall_text
  · exact fun _ hc => absurd hc List.not_mem_nil

end IsMatch

/-! ## Pieces between matches -/

theorem isInfix_of_mem_piecesBetween {text piece : List Char} {offset : Nat} {ms : List Match}
    (h : piece ∈ piecesBetween text offset ms) : piece <:+: text := by
  induction ms generalizing offset with
  | nil =>
      rw [List.mem_singleton.1 h]
      exact (List.drop_suffix offset text).isInfix
  | cons m ms ih =>
      rcases List.mem_cons.1 h with rfl | h
      · exact (List.take_prefix _ _).isInfix.trans (List.drop_suffix offset text).isInfix
      · exact ih h

theorem isInfix_of_mem_split {pattern : Pattern} {text piece : List Char}
    (h : piece ∈ pattern.split text) :
    piece <:+: text :=
  isInfix_of_mem_piecesBetween h

end Pattern

end CodeSurvey
