/-
# The outline of a source, step by step

The outline goes through a source line by line, but a function takes its whole block along, so the
recursion skips.  `Outlined` says what the scan does without skipping: one constructor for each kind
of step, the next step beginning where this one ends.  Facts about an outline are then inductions
with four cases; the first is that the steps are the lines of the source, none lost and none twice
(`Outlined.lines_eq`).
-/
import CodeSurvey.Scan.PythonOutline

namespace CodeSurvey.Python

open Text

/-! ## The lines of a step -/

def Function.lines (f : Function) : List Line := f.header :: f.body.map Item.text

def Step.lines : Step → List Line
  | .line item => [item.text]
  | .function f => f.lines

theorem bodyItems_text (strings : StringState) (depth number size : Nat) (below : List Line) :
    (bodyItems strings depth number size below).map Item.text = below.take size := by
  induction size generalizing strings depth number below with
  | zero => rfl
  | succ size ih =>
      cases below with
      | nil => rfl
      | cons text below => rw [bodyItems, List.map_cons, ih, List.take_succ_cons]

/-! ## The steps -/

def blockSize (header : Line) (below : List Line) : Nat := (blockUnder header below).length

def functionAt (number : Nat) (header : Line) (name : String) (parameters : List String)
    (below : List Line) : Function :=
  ⟨number, header, name, parameters, below,
    bodyItems none 0 (number + 1) (blockSize header below) below⟩

theorem take_blockSize (header : Line) (below : List Line) :
    below.take (blockSize header below) = blockUnder header below :=
  (List.prefix_iff_eq_take.1 (List.takeWhile_prefix _)).symm

theorem blockUnder_append_drop (header : Line) (below : List Line) :
    blockUnder header below ++ below.drop (blockSize header below) = below := by
  rw [← take_blockSize, List.take_append_drop]

theorem lines_functionAt (number : Nat) (header : Line) (name : String)
    (parameters : List String) (below : List Line) :
    (functionAt number header name parameters below).lines = header :: blockUnder header below := by
  rw [Function.lines, functionAt, bodyItems_text, take_blockSize]

theorem roleAt_ne_quoted (depth : Nat) (text : Line) : roleAt depth text ≠ .quoted := by
  unfold roleAt
  dsimp only
  split
  · nofun
  · split <;> nofun

/-- The steps of the scan over lines, from a string state and a bracket depth on. -/
inductive Outlined : StringState → Nat → Nat → List Line → List Step → Prop
  | done {strings : StringState} {depth number : Nat} : Outlined strings depth number [] []
  | quoted {quote : TripleQuote} {depth number : Nat} {text : Line} {below : List Line}
      {steps : List Step} :
      Outlined (StringState.next (some quote) text) depth (number + 1) below steps →
      Outlined (some quote) depth number (text :: below)
        (.line ⟨number, text, .quoted, below⟩ :: steps)
  | line {depth number : Nat} {text : Line} {below : List Line} {steps : List Step} :
      (∀ name parameters,
        roleAt (moduleDepth depth text) text ≠ .definition name parameters) →
      Outlined (openedBy text)
        ((roleAt (moduleDepth depth text) text).depthAfter (moduleDepth depth text) text)
        (number + 1) below steps →
      Outlined none depth number (text :: below)
        (.line ⟨number, text, roleAt (moduleDepth depth text) text, below⟩ :: steps)
  | function {depth number : Nat} {text : Line} {name : String} {parameters : List String}
      {below : List Line} {steps : List Step} :
      roleAt (moduleDepth depth text) text = .definition name parameters →
      Outlined (openedBy text) 0 (number + 1 + blockSize text below)
        (below.drop (blockSize text below)) steps →
      Outlined none depth number (text :: below)
        (.function (functionAt number text name parameters below) :: steps)

/-- Skipped lines leave no trace but in the numbers. -/
theorem outlineFrom_skip (strings : StringState) (depth number skip : Nat) (lines : List Line) :
    outlineFrom strings depth number skip lines =
      outlineFrom strings depth (number + skip) 0 (lines.drop skip) := by
  induction lines generalizing number skip with
  | nil => rw [List.drop_nil, outlineFrom, outlineFrom]
  | cons text below ih =>
      cases skip with
      | zero => rfl
      | succ skip =>
          rw [outlineFrom, if_pos (Nat.succ_pos skip), Nat.add_sub_cancel, ih,
            List.drop_succ_cons, Nat.add_assoc, Nat.add_comm 1 skip]

/-- The scan makes the steps that `Outlined` says. -/
theorem outlined_outlineFrom (strings : StringState) (depth number : Nat) (lines : List Line) :
    Outlined strings depth number lines (outlineFrom strings depth number 0 lines) := by
  -- a function's block is skipped, so the induction is on the number of lines
  generalize hn : lines.length = n
  induction n using Nat.strongRecOn generalizing strings depth number lines with
  | ind n ih =>
      cases lines with
      | nil => exact .done
      | cons text below =>
          have hnext : ∀ strings depth number,
              Outlined strings depth number below (outlineFrom strings depth number 0 below) :=
            fun _ _ _ => ih below.length (by simp [← hn]) _ _ _ below rfl
          cases strings with
          | some quote => exact .quoted (hnext _ _ _)
          | none =>
              rw [outlineFrom, if_neg (Nat.lt_irrefl 0)]
              simp only [StringState.inside, Option.isSome_none, Bool.false_eq_true, if_false]
              split
              · rename_i name parameters hrole
                rw [outlineFrom_skip]
                refine .function hrole (ih _ ?_ _ _ _ _ rfl)
                rw [← hn, List.length_drop, List.length_cons]
                omega
              · rename_i hrole
                exact .line (fun name parameters h => hrole name parameters h) (hnext _ _ _)

theorem outlined_outline (lines : List Line) : Outlined none 0 1 lines (outline lines) :=
  outlined_outlineFrom none 0 1 lines

theorem Outlined.lines_eq {strings : StringState} {depth number : Nat} {lines : List Line}
    {steps : List Step} (h : Outlined strings depth number lines steps) :
    steps.flatMap Step.lines = lines := by
  induction h with
  | done => rfl
  | quoted _ ih => rw [List.flatMap_cons, ih]; rfl
  | line _ _ ih => rw [List.flatMap_cons, ih]; rfl
  | @function depth number text name parameters below steps _ _ ih =>
      rw [List.flatMap_cons, ih, Step.lines, lines_functionAt, List.cons_append,
        blockUnder_append_drop]

theorem Outlined.exists_functionAt {strings : StringState} {depth number : Nat}
    {lines : List Line} {steps : List Step} (h : Outlined strings depth number lines steps)
    {f : Function} (hf : .function f ∈ steps) :
    ∃ number header name parameters below,
      f = functionAt number header name parameters below := by
  induction h with
  | done => cases hf
  | quoted _ ih =>
      rcases List.mem_cons.1 hf with hf | hf
      · cases hf
      · exact ih hf
  | line _ _ ih =>
      rcases List.mem_cons.1 hf with hf | hf
      · cases hf
      · exact ih hf
  | function _ _ ih =>
      rcases List.mem_cons.1 hf with hf | hf
      · exact ⟨_, _, _, _, _, Step.function.inj hf⟩
      · exact ih hf

end CodeSurvey.Python
