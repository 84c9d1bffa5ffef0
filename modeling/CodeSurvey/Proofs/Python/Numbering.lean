/-
# The numbers of an outline

The lines of an outline are numbered in their order, and no number is given twice
(`Outlined.numbers_eq`).  So a finding that names a line names the function and the item that it is
on (`eq_of_number_eq`).

The numbers of a step are those of its lines: one for most, and for a function its header and all
lines of its body.  Put one behind the other they are the numbers of the source, from the first line
on without a gap.  That is the whole of it: that functions come in order, that their bodies do not
meet, and that two functions with one number are one, is read off a list of successive numbers.
-/
import Mathlib.Data.List.Nodup
import Mathlib.Data.List.Pairwise
import CodeSurvey.Proofs.Python.Reading

namespace CodeSurvey.Python

open Text

/-- The functions that the scan of a source finds. -/
def functionsIn (lines : List Line) : List Function := (outline lines).filterMap Step.function?

/-- The lines that are scanned one by one, in functions and outside. -/
def itemsIn (lines : List Line) : List Item := (outline lines).flatMap Step.items

theorem mem_functionsIn {lines : List Line} {f : Function} :
    f ∈ functionsIn lines ↔ .function f ∈ outline lines := by
  rw [functionsIn, List.mem_filterMap]
  constructor
  · rintro ⟨step, hstep, hfunction⟩
    cases step with
    | line item => cases hfunction
    | function g =>
        obtain rfl := Option.some.inj hfunction
        exact hstep
  · exact fun h => ⟨_, h, rfl⟩

/-! ## Numbers -/

def Step.numbers : Step → List Nat
  | .line item => [item.number]
  | .function f => f.number :: f.body.map Item.number

theorem bodyItems_number (strings : StringState) (depth number size : Nat) (below : List Line) :
    (bodyItems strings depth number size below).map Item.number =
      List.range' number (below.take size).length := by
  induction size generalizing strings depth number below with
  | zero => rfl
  | succ size ih =>
      cases below with
      | nil => rfl
      | cons text below =>
          rw [bodyItems, List.map_cons, ih, List.take_succ_cons, List.length_cons,
            List.range'_succ]

theorem Outlined.numbers_eq {strings : StringState} {depth number : Nat} {lines : List Line}
    {steps : List Step} (h : Outlined strings depth number lines steps) :
    steps.flatMap Step.numbers = List.range' number lines.length := by
  induction h with
  | done => rfl
  | quoted _ ih =>
      rw [List.flatMap_cons, ih, List.length_cons, List.range'_succ]
      rfl
  | line _ _ ih =>
      rw [List.flatMap_cons, ih, List.length_cons, List.range'_succ]
      rfl
  | @function depth number text name parameters below steps _ _ ih =>
      have hlength : (blockUnder text below).length +
          (below.drop (blockSize text below)).length = below.length := by
        rw [← List.length_append, blockUnder_append_drop]
      rw [List.flatMap_cons, ih, Step.numbers, functionAt, bodyItems_number, take_blockSize,
        List.length_cons, List.range'_succ, ← hlength, ← List.range'_append_1, List.cons_append]
      rfl

theorem nodup_numbers (lines : List Line) : ((outline lines).flatMap Step.numbers).Nodup := by
  rw [(outlined_outline lines).numbers_eq]
  exact List.nodup_range'

theorem pairwise_steps (lines : List Line) :
    (outline lines).Pairwise (fun a b => ∀ n ∈ a.numbers, ∀ m ∈ b.numbers, n < m) := by
  have hnumbers : ((outline lines).flatMap Step.numbers).Pairwise (· < ·) := by
    rw [(outlined_outline lines).numbers_eq]
    exact List.pairwise_lt_range'
  exact (List.pairwise_flatMap.1 hnumbers).2

theorem pairwise_functionsIn (lines : List Line) :
    (functionsIn lines).Pairwise (fun f g =>
      ∀ n ∈ (Step.function f).numbers, ∀ m ∈ (Step.function g).numbers, n < m) := by
  refine (pairwise_steps lines).filterMap _ ?_
  intro a b h f hf g hg
  cases a with
  | line item => cases hf
  | function f' =>
      cases b with
      | line item => cases hg
      | function g' =>
          obtain rfl := Option.some.inj hf
          obtain rfl := Option.some.inj hg
          exact h

theorem numbers_function {lines : List Line} {f : Function} (hf : f ∈ functionsIn lines) :
    (Step.function f).numbers = List.range' f.number (f.body.length + 1) := by
  obtain ⟨number, header, name, parameters, below, rfl⟩ :=
    (outlined_outline lines).exists_functionAt (mem_functionsIn.1 hf)
  have hbody := bodyItems_number none 0 (number + 1) (blockSize header below) below
  have hlength := congrArg List.length hbody
  rw [List.length_map, List.length_range'] at hlength
  rw [Step.numbers, functionAt, hbody, hlength, List.range'_succ]

theorem pairwise_number_functionsIn (lines : List Line) :
    (functionsIn lines).Pairwise (fun f g => f.number < g.number) :=
  (pairwise_functionsIn lines).imp
    (fun h => h _ List.mem_cons_self _ List.mem_cons_self)

theorem nodup_body {lines : List Line} {f : Function} (hf : f ∈ functionsIn lines) :
    f.body.Nodup := by
  have hnumbers := (List.nodup_flatMap.1 (nodup_numbers lines)).1 _ (mem_functionsIn.1 hf)
  exact (List.nodup_cons.1 hnumbers).2.of_map _

theorem eq_of_number_eq {lines : List Line} {f g : Function} (hf : f ∈ functionsIn lines)
    (hg : g ∈ functionsIn lines) {item other : Item} (hitem : item ∈ f.body)
    (hother : other ∈ g.body) (hnumber : item.number = other.number) : f = g ∧ item = other := by
  obtain ⟨hsteps, hdisjoint⟩ := List.nodup_flatMap.1 (nodup_numbers lines)
  have hfunction : f = g := by
    by_contra hne
    have hsymm : Std.Symm (Function.onFun List.Disjoint Step.numbers) :=
      ⟨fun _ _ h _ hleft hright => h hright hleft⟩
    have happart := hdisjoint.forall (mem_functionsIn.1 hf) (mem_functionsIn.1 hg)
      (fun heq => hne (Step.function.inj heq))
    refine happart (List.mem_cons_of_mem _ (List.mem_map_of_mem hitem)) ?_
    rw [hnumber]
    exact List.mem_cons_of_mem _ (List.mem_map_of_mem hother)
  subst hfunction
  have hbody := (List.nodup_cons.1 (hsteps _ (mem_functionsIn.1 hf))).2
  exact ⟨rfl, List.inj_on_of_nodup_map hbody hitem hother hnumber⟩

end CodeSurvey.Python
