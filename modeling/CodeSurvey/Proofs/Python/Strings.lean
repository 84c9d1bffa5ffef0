/-
# Where strings and blocks disagree

The scan follows triple quoted strings by two machines: one for module level, which passes over the
block of a function, and a new one for each block.  A block ends by indentation alone.  So they read
a source as a single machine would exactly as long as no string crosses the edge of a block: none is
open behind a header, and none behind a block (`Outlined.marks_eq_iff`).  A docstring that is
indented less than its function crosses that edge, and what is behind it is read inside out.

Of the lines that the scan does take for code, no header is lost (`Outlined.declared`).
-/
import CodeSurvey.Proofs.Python.Headers
import CodeSurvey.Proofs.Python.Outline
import CodeSurvey.Scan.Python

namespace CodeSurvey.Python

open Text Pattern

/-! ## One machine over many lines -/

def StringState.after (state : StringState) (lines : List Line) : StringState :=
  lines.foldl StringState.next state

theorem length_insideString (state : StringState) (lines : List Line) :
    (insideString state lines).length = lines.length := by
  induction lines generalizing state with
  | nil => rfl
  | cons line rest ih => rw [insideString, List.length_cons, List.length_cons, ih]

theorem insideString_append (state : StringState) (front back : List Line) :
    insideString state (front ++ back) =
      insideString state front ++ insideString (state.after front) back := by
  induction front generalizing state with
  | nil => rfl
  | cons line rest ih => rw [List.cons_append, insideString, insideString, ih]; rfl

theorem insideString_none_eq_iff (state : StringState) (lines : List Line) :
    insideString none lines = insideString state lines ↔ lines = [] ∨ state = none := by
  constructor
  · intro h
    cases lines with
    | nil => exact Or.inl rfl
    | cons line rest =>
        cases state with
        | none => exact Or.inr rfl
        | some quote => cases (List.cons.inj h).1
  · rintro (rfl | rfl) <;> rfl

/-! ## The marks of the scan -/

/-- Whether the scan takes a line to begin inside a string. -/
def Item.isQuoted (item : Item) : Bool := item.role == .quoted

theorem isQuoted_roleAt (number depth : Nat) (text : Line) (below : List Line) :
    (Item.mk number text (roleAt depth text) below).isQuoted = false :=
  beq_eq_false_iff_ne.2 (roleAt_ne_quoted depth text)

def Step.marks : Step → List Bool
  | .line item => [item.isQuoted]
  | .function f => false :: f.body.map Item.isQuoted

/-- In a block, the marks are those of a machine of its own. -/
theorem bodyItems_isQuoted (strings : StringState) (depth number size : Nat)
    (below : List Line) :
    (bodyItems strings depth number size below).map Item.isQuoted =
      insideString strings (below.take size) := by
  induction size generalizing strings depth number below with
  | zero => rfl
  | succ size ih =>
      cases below with
      | nil => rfl
      | cons text below =>
          rw [bodyItems, List.map_cons, ih, List.take_succ_cons, insideString]
          refine congrArg (· :: _) ?_
          cases strings with
          | some quote => rfl
          | none =>
              simp only [StringState.inside, Option.isSome_none, Bool.false_eq_true, if_false]
              split
              · exact isQuoted_roleAt number depth text below
              · rfl

theorem marks_functionAt (number : Nat) (header : Line) (name : String)
    (parameters : List String) (below : List Line) :
    (Step.function (functionAt number header name parameters below)).marks =
      false :: insideString none (blockUnder header below) := by
  rw [Step.marks, functionAt, bodyItems_isQuoted, take_blockSize]

/-- A function keeps strings whole: none is open behind its header, and none behind its block if
the source goes on there.  Without a block nothing is handed over. -/
def Function.KeepsStrings (f : Function) : Prop :=
  f.block = [] ∨ openedBy f.header = none ∧
    (StringState.after none f.block = none ∨ f.below.drop f.block.length = [])

theorem block_functionAt (number : Nat) (header : Line) (name : String)
    (parameters : List String) (below : List Line) :
    (functionAt number header name parameters below).block = blockUnder header below := by
  rw [Function.block, functionAt, bodyItems_text, take_blockSize]

theorem Outlined.eq_nil_of_marks {depth number : Nat} {lines : List Line} {steps : List Step}
    {quote : TripleQuote} (h : Outlined none depth number lines steps)
    (hmarks : steps.flatMap Step.marks = insideString (some quote) lines) : lines = [] := by
  cases h with
  | done => rfl
  | @line depth number text below _ _ _ =>
      have hfirst := (List.cons.inj hmarks).1
      rw [isQuoted_roleAt] at hfirst
      cases hfirst
  | function _ _ => cases (List.cons.inj hmarks).1

/-- Steps that begin outside strings are read alike from a state only if that is outside, too, or
if there is nothing to read. -/
theorem Outlined.marks_eq_iff_outside {depth number : Nat} {lines : List Line}
    {steps : List Step} (h : Outlined none depth number lines steps) (state : StringState) :
    steps.flatMap Step.marks = insideString state lines ↔
      (state = none ∨ lines = []) ∧ steps.flatMap Step.marks = insideString none lines := by
  cases state with
  | none => simp only [true_or, true_and]
  | some quote =>
      constructor
      · intro hmarks
        have hnil := h.eq_nil_of_marks hmarks
        subst hnil
        exact ⟨Or.inr rfl, hmarks⟩
      · rintro ⟨hempty, hmarks⟩
        have hnil := hempty.resolve_left nofun
        subst hnil
        exact hmarks

/-- A block is read from outside and the steps behind it from the state behind the header; a single
machine reads the block from the latter, and what is behind it from where the block ends. -/
theorem Outlined.hands_over_iff {state : StringState} {depth number : Nat} {rest : List Line}
    {steps : List Step} (h : Outlined state depth number rest steps) (block : List Line) :
    insideString none block ++ steps.flatMap Step.marks = insideString state (block ++ rest) ↔
      (block = [] ∨ state = none ∧ (StringState.after none block = none ∨ rest = [])) ∧
        steps.flatMap Step.marks = insideString state rest := by
  have hlength : (insideString none block).length = (insideString state block).length := by
    rw [length_insideString, length_insideString]
  rw [insideString_append, List.append_eq_append_iff_of_size_eq_left hlength,
    insideString_none_eq_iff]
  by_cases hblock : block = []
  · subst hblock
    simp only [true_or, true_and]
    rfl
  · cases state with
    | some quote => simp only [hblock, reduceCtorEq, or_self, false_and]
    | none =>
        simp only [hblock, false_or, true_and]
        exact h.marks_eq_iff_outside _

/-- **The scan marks what a single machine marks exactly if every function keeps strings whole.** -/
theorem Outlined.marks_eq_iff {strings : StringState} {depth number : Nat} {lines : List Line}
    {steps : List Step} (h : Outlined strings depth number lines steps) :
    steps.flatMap Step.marks = insideString strings lines ↔
      ∀ f ∈ steps.filterMap Step.function?, f.KeepsStrings := by
  induction h with
  | done => simp [insideString]
  | quoted _ ih =>
      rw [List.flatMap_cons, insideString]
      exact (List.cons_inj_right true).trans ih
  | @line depth number text below steps _ _ ih =>
      rw [List.flatMap_cons, insideString, Step.marks, isQuoted_roleAt]
      exact (List.cons_inj_right false).trans ih
  | @function depth number text name parameters below steps _ hrest ih =>
      have hfunctions : (∀ f ∈ (Step.function (functionAt number text name parameters below) ::
          steps).filterMap Step.function?, f.KeepsStrings) ↔
          (functionAt number text name parameters below).KeepsStrings ∧
            steps.flatMap Step.marks =
              insideString (openedBy text) (below.drop (blockSize text below)) := by
        rw [ih]
        exact List.forall_mem_cons
      have hhands := hrest.hands_over_iff (blockUnder text below)
      rw [blockUnder_append_drop] at hhands
      -- the header is read alike by both machines; what is left are the block and the steps behind
      rw [hfunctions, Function.KeepsStrings, block_functionAt, List.flatMap_cons, marks_functionAt,
        insideString]
      exact (List.cons_inj_right false).trans hhands

/-! ## Headers outside strings -/

/-- In a block, a header that the machine of the block does not mark is declared. -/
theorem declared_bodyItems (strings : StringState) (depth number size : Nat)
    (below : List Line) {line : Line} {name : String} {parameters : List String}
    (hmem : (line, false) ∈ (below.take size).zip (insideString strings (below.take size)))
    (hdef : definition? (trim line) = some (name, parameters)) :
    name ∈ (bodyItems strings depth number size below).flatMap Item.declaredFunctions := by
  induction size generalizing strings depth number below with
  | zero => cases hmem
  | succ size ih =>
      cases below with
      | nil => cases hmem
      | cons text below =>
          rw [List.take_succ_cons, insideString, List.zip_cons_cons] at hmem
          rw [bodyItems, List.flatMap_cons, List.mem_append]
          rcases List.mem_cons.1 hmem with heq | hmem
          · -- the line itself: outside strings, so its role is the one its text has
            obtain ⟨rfl, houtside⟩ := Prod.mk.inj heq
            refine Or.inl ?_
            rw [← houtside, if_neg Bool.false_ne_true, if_pos (hasContent_of_definition? hdef),
              roleAt_of_definition? hdef]
            exact List.mem_singleton_self name
          · exact Or.inr (ih _ _ _ _ hmem)

theorem Outlined.declared {strings : StringState} {depth number : Nat} {lines : List Line}
    {steps : List Step} (h : Outlined strings depth number lines steps) {line : Line}
    {name : String} {parameters : List String}
    (hmem : (line, false) ∈ lines.zip (steps.flatMap Step.marks))
    (hdef : definition? (trim line) = some (name, parameters)) :
    name ∈ steps.flatMap Step.declaredFunctions := by
  induction h with
  | done => cases hmem
  | quoted _ ih =>
      rw [List.flatMap_cons, List.mem_append]
      rcases List.mem_cons.1 hmem with heq | hmem
      · cases (Prod.mk.inj heq).2
      · exact Or.inr (ih hmem)
  | line hrole _ ih =>
      rw [List.flatMap_cons, List.mem_append]
      rcases List.mem_cons.1 hmem with heq | hmem
      · obtain ⟨rfl, -⟩ := Prod.mk.inj heq
        exact absurd (roleAt_of_definition? hdef _) (hrole name parameters)
      · exact Or.inr (ih hmem)
  | @function depth number text fname fparameters below steps hrole _ ih =>
      rw [List.flatMap_cons, List.mem_append]
      have hzip : below.zip (insideString none (blockUnder text below) ++
            steps.flatMap Step.marks) =
          (blockUnder text below).zip (insideString none (blockUnder text below)) ++
            (below.drop (blockSize text below)).zip (steps.flatMap Step.marks) := by
        rw [← List.zip_append (length_insideString none _).symm, blockUnder_append_drop]
      rw [List.flatMap_cons, marks_functionAt, List.cons_append, List.zip_cons_cons, hzip] at hmem
      rcases List.mem_cons.1 hmem with heq | hmem
      · obtain ⟨rfl, -⟩ := Prod.mk.inj heq
        obtain ⟨rfl, -⟩ := Role.definition.inj ((roleAt_of_definition? hdef _).symm.trans hrole)
        exact Or.inl List.mem_cons_self
      rcases List.mem_append.1 hmem with hmem | hmem
      · rw [← take_blockSize] at hmem
        exact Or.inl (List.mem_cons_of_mem _
          (declared_bodyItems none 0 (number + 1) _ below hmem hdef))
      · exact Or.inr (ih hmem)

/-! ## Sources -/

/-- **Where the scan and a single machine agree.**  The steps of a source are its lines, in order.
The scan marks them as one machine over all of them does if and only if every function keeps
strings whole.  And whatever it marks, it declares every header that it takes for code. -/
theorem strings_followed_iff (source : String) :
    (outline (linesOf source)).flatMap Step.lines = linesOf source ∧
      ((outline (linesOf source)).flatMap Step.marks = insideString none (linesOf source) ↔
        ∀ f ∈ (outline (linesOf source)).filterMap Step.function?, f.KeepsStrings) ∧
      ∀ line name parameters,
        (line, false) ∈ (linesOf source).zip ((outline (linesOf source)).flatMap Step.marks) →
        definition? (trim line) = some (name, parameters) →
          name ∈ (analyze source).declaredFunctions := by
  have hsteps := outlined_outline (linesOf source)
  refine ⟨hsteps.lines_eq, hsteps.marks_eq_iff, fun line name parameters hmem hdef => ?_⟩
  exact NameSet.mem_ofList.2 (hsteps.declared hmem hdef)

/-- A docstring over three lines, each as deep as the body of its function. -/
def indentedDocstring : String :=
  "def f():\n    \"\"\"doc\n    text\n    \"\"\"\ndef g():\n    pass"

/-- The header behind the docstring is declared. -/
theorem declared_behind_indentedDocstring :
    "g" ∈ (analyze indentedDocstring).declaredFunctions :=
  (strings_followed_iff indentedDocstring).2.2 "def g():".toList "g" [] (by decide) (by decide)

/-- The text of a docstring at the left margin. -/
def dedentedDocstring : String :=
  "def f():\n    \"\"\"doc\ntext\n    \"\"\"\ndef g():\n    pass"

/-- The block ends at the text of the docstring, and the string with it.  The end of the docstring
then opens a string: what is behind it is not read, and its header is not declared, though a single
machine marks that header as code. -/
theorem lost_behind_dedentedDocstring :
    (outline (linesOf dedentedDocstring)).flatMap Step.marks =
        [false, false, false, false, true, true] ∧
      insideString none (linesOf dedentedDocstring) =
        [false, false, true, true, false, false] ∧
      ("def g():".toList, false) ∈
        (linesOf dedentedDocstring).zip (insideString none (linesOf dedentedDocstring)) ∧
      definition? (trim "def g():".toList) = some ("g", []) ∧
      "g" ∉ (analyze dedentedDocstring).declaredFunctions := by
  decide

end CodeSurvey.Python
