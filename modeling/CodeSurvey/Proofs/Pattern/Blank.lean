/-
# Patterns on blank text

A pattern that takes a character that is no blank on every way (`Visible`) finds nothing in a text
of blanks.

`Visible` is read off a pattern alone.  A sequence is visible if either part is, an alternative only
if both are, and a repetition that may be empty never is, for it has a way that takes nothing.  So
it is not asked of a text, and a pattern is shown visible once for all the blank lines that a scan
comes to.  What takes something on every way is more than what matches no empty text: a pattern of
one space matches no empty text and is found among blanks all the same.
-/
import CodeSurvey.Proofs.Pattern.Runs
import CodeSurvey.Proofs.Pattern.Spans

namespace CodeSurvey.Pattern

open Text

/-- Whether every run of a pattern takes a character that is no blank. -/
def Visible : Pattern → Prop
  | one p => ∀ c, p c = true → isBlank c = false
  | seq a b => a.Visible ∨ b.Visible
  | either a b => a.Visible ∧ b.Visible
  | group _ a => a.Visible
  | empty | many _ | few _ | rounds _ | wordEdge | textStart | textEnd => False

theorem visible_char {c : Char} (h : isBlank c = false) : (char c).Visible := by
  intro d hd
  rw [beq_iff_eq.1 hd]
  exact h

theorem visible_literal {text : String} {c : Char} {others : List Char}
    (htext : text.toList = c :: others) (h : isBlank c = false) : (literal text).Visible := by
  rw [literal, htext]
  exact Or.inl (visible_char h)

theorem runs_of_visible {pattern : Pattern} (h : pattern.Visible) {here : Place × Groups}
    (hblank : ∀ c ∈ here.1.rest, isBlank c = true) : pattern.runs here = [] := by
  rw [List.eq_nil_iff_forall_not_mem]
  intro out hout
  induction pattern generalizing here out with
  | one p =>
      obtain ⟨c, htakes, hc, -⟩ := takes_of_mem_one hout
      have hmem : c ∈ here.1.rest := by
        rw [htakes.rest]
        exact List.mem_cons_self
      exact Bool.eq_false_iff.1 (h c hc) (hblank c hmem)
  | seq a b iha ihb =>
      obtain ⟨mid, hmid, hbehind⟩ := mem_runs_append.1 hout
      rcases h with ha | hb
      · exact iha ha hblank mid hmid
      · obtain ⟨taken, htakes, -⟩ := takes_of_mem_runs (over_true a) hmid
        refine ihb hb (fun c hc => hblank c ?_) out hbehind
        rw [htakes.rest]
        exact List.mem_append_right taken hc
  | either a b iha ihb =>
      rcases List.mem_append.1 hout with hout | hout
      · exact iha h.1 hblank out hout
      · exact ihb h.2 hblank out hout
  | group n a ih =>
      obtain ⟨inner, hinner, -⟩ := mem_runs_group.1 hout
      exact ih h hblank inner hinner
  | empty | many p | few p | rounds a ih | wordEdge | textStart | textEnd => exact h

theorem matchAt?_of_visible {pattern : Pattern} (h : pattern.Visible) {place : Place}
    (hblank : ∀ c ∈ place.rest, isBlank c = true) : pattern.matchAt? place = none := by
  rw [matchAt?, runs_of_visible h hblank]
  rfl

theorem find?_of_visible {pattern : Pattern} (h : pattern.Visible) {text : List Char}
    (hblank : ∀ c ∈ text, isBlank c = true) : pattern.find? text = none := by
  have hfrom : ∀ offset before, pattern.findFrom offset before text = none := by
    induction text with
    | nil => exact fun offset before => matchAt?_of_visible h hblank
    | cons c rest ih =>
        intro offset before
        rw [findFrom, matchAt?_of_visible h hblank]
        exact ih (List.forall_mem_cons.1 hblank).2 _ _
  exact hfrom 0 none

theorem findAll_of_visible {pattern : Pattern} (h : pattern.Visible) {text : List Char}
    (hblank : ∀ c ∈ text, isBlank c = true) : pattern.findAll text = [] := by
  have hfrom : ∀ skip offset before, pattern.findAllFrom skip offset before text = [] := by
    induction text with
    | nil => exact fun _ _ _ => rfl
    | cons c rest ih =>
        intro skip offset before
        have hrest := ih (List.forall_mem_cons.1 hblank).2
        rw [findAllFrom, matchAt?_of_visible h hblank]
        split
        · exact hrest _ _ _
        · exact hrest _ _ _
  exact hfrom 0 0 none

end CodeSurvey.Pattern
