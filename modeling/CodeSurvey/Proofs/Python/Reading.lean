/-
# The scan as a machine that reads lines

The scan takes a function together with its block, so what it knows at a line is spread over two
recursions.  Here it is one record (`ScanState`): the string and the bracket depth at module level,
and those of the block that it is in, if it is in one.  Reading a line gives the line its role and
the next state, so what is behind some lines depends on the state behind them and on nothing else.
The roles of an outline are those that the machine gives (`roles_outline`).
-/
import CodeSurvey.Proofs.Python.Outline
import CodeSurvey.Scan.Python

namespace CodeSurvey.Python

open Text

/-! ## The machine -/

/-- The block of a function that the scan is in. -/
structure OpenBlock where
  indent : Nat
  strings : StringState
  depth : Nat
deriving DecidableEq, Repr

/-- What the scan knows between two lines. -/
structure ScanState where
  strings : StringState
  depth : Nat
  block : Option OpenBlock
deriving DecidableEq, Repr

namespace ScanState

def initial : ScanState := ⟨none, 0, none⟩

def blockOf? (s : ScanState) (text : Line) : Option OpenBlock :=
  s.block.filter (fun b => inBlock b.indent text)

end ScanState

def OpenBlock.role (b : OpenBlock) (text : Line) : Role :=
  if b.strings.inside then .quoted
  else if hasContent text then roleAt b.depth text
  else .idle

def OpenBlock.next (b : OpenBlock) (text : Line) : OpenBlock :=
  ⟨b.indent, b.strings.next text, (b.role text).depthAfter b.depth text⟩

namespace ScanState

def moduleRole (s : ScanState) (text : Line) : Role :=
  if s.strings.inside then .quoted else roleAt (moduleDepth s.depth text) text

/-- The state behind a line at module level.  A header begins a block and closes all brackets. -/
def moduleNext (s : ScanState) (text : Line) : ScanState :=
  match s.moduleRole text with
  | .definition _ _ => ⟨s.strings.next text, 0, some ⟨indentWidth text, none, 0⟩⟩
  | .quoted => ⟨s.strings.next text, s.depth, none⟩
  | role => ⟨s.strings.next text, role.depthAfter (moduleDepth s.depth text) text, none⟩

def role (s : ScanState) (text : Line) : Role :=
  match s.blockOf? text with
  | some b => b.role text
  | none => s.moduleRole text

def next (s : ScanState) (text : Line) : ScanState :=
  match s.blockOf? text with
  | some b => ⟨s.strings, s.depth, some (b.next text)⟩
  | none => s.moduleNext text

def roles (s : ScanState) : List Line → List Role
  | [] => []
  | text :: below => s.role text :: roles (s.next text) below

def after (s : ScanState) (lines : List Line) : ScanState := lines.foldl next s

theorem after_append (s : ScanState) (front back : List Line) :
    s.after (front ++ back) = (s.after front).after back :=
  List.foldl_append

theorem roles_append (s : ScanState) (front back : List Line) :
    s.roles (front ++ back) = s.roles front ++ (s.after front).roles back := by
  induction front generalizing s with
  | nil => rfl
  | cons text front ih => rw [List.cons_append, roles, roles, ih]; rfl

/-! ## Blocks -/

theorem blockOf?_of_inBlock {strings : StringState} {depth : Nat} {b : OpenBlock} {text : Line}
    (h : inBlock b.indent text = true) : (mk strings depth (some b)).blockOf? text = some b := by
  simp [blockOf?, h]

theorem blockOf?_of_not_inBlock {strings : StringState} {depth : Nat} {b : OpenBlock} {text : Line}
    (h : inBlock b.indent text = false) : (mk strings depth (some b)).blockOf? text = none := by
  simp [blockOf?, h]

theorem roles_of_left {strings : StringState} {depth : Nat} {b : OpenBlock} {lines : List Line}
    (h : ∀ text, lines.head? = some text → inBlock b.indent text = false) :
    (mk strings depth (some b)).roles lines = (mk strings depth none).roles lines := by
  cases lines with
  | nil => rfl
  | cons text below =>
      have hleft : (mk strings depth (some b)).blockOf? text = none :=
        blockOf?_of_not_inBlock (h text rfl)
      rw [roles, roles, role, role, next, next, hleft]
      rfl

theorem roles_block (strings : StringState) (depth number : Nat) (b : OpenBlock)
    (below : List Line) :
    (mk strings depth (some b)).roles below =
      (bodyItems b.strings b.depth number (below.takeWhile (inBlock b.indent)).length below).map
          Item.role ++
        (mk strings depth none).roles
          (below.drop (below.takeWhile (inBlock b.indent)).length) := by
  -- on the lines behind the header; each line of the block changes what is known of it
  induction below generalizing b number with
  | nil => rfl
  | cons text below ih =>
      cases hblock : inBlock b.indent text with
      | true =>
          rw [List.takeWhile_cons_of_pos hblock, List.length_cons, bodyItems, List.map_cons,
            List.drop_succ_cons, roles, role, next, blockOf?_of_inBlock hblock]
          dsimp only
          rw [ih (number + 1) (b.next text)]
          rfl
      | false =>
          rw [List.takeWhile_cons_of_neg (Bool.eq_false_iff.1 hblock)]
          refine roles_of_left (fun first hfirst => ?_)
          rw [← Option.some.inj hfirst]
          exact hblock

/-! ## Module level -/

theorem moduleRole_of_outside {s : ScanState} (h : s.strings = none) (text : Line) :
    s.moduleRole text = roleAt (moduleDepth s.depth text) text := by
  rw [moduleRole, h]
  rfl

theorem moduleNext_of_definition {s : ScanState} {text : Line} {name : String}
    {parameters : List String} (h : s.moduleRole text = .definition name parameters) :
    s.moduleNext text = ⟨s.strings.next text, 0, some ⟨indentWidth text, none, 0⟩⟩ := by
  rw [moduleNext, h]

theorem moduleNext_of_not_definition {s : ScanState} (hs : s.strings = none) {text : Line}
    (h : ∀ name parameters, s.moduleRole text ≠ .definition name parameters) :
    s.moduleNext text =
      ⟨s.strings.next text,
        (s.moduleRole text).depthAfter (moduleDepth s.depth text) text, none⟩ := by
  rw [moduleNext]
  split
  · rename_i name parameters hrole
    exact absurd hrole (h name parameters)
  · rename_i hrole
    rw [moduleRole_of_outside hs] at hrole
    exact absurd hrole (roleAt_ne_quoted _ text)
  · rfl

end ScanState

/-! ## The outline -/

def Step.roles : Step → List Role
  | .line item => [item.role]
  | .function f => .definition f.name f.parameters :: f.body.map Item.role

theorem Outlined.roles_eq {strings : StringState} {depth number : Nat} {lines : List Line}
    {steps : List Step} (h : Outlined strings depth number lines steps) :
    steps.flatMap Step.roles = (ScanState.mk strings depth none).roles lines := by
  induction h with
  | done => rfl
  | quoted _ ih =>
      rw [List.flatMap_cons, ih]
      rfl
  | @line depth number text below steps hrole _ ih =>
      rw [List.flatMap_cons, ih]
      have hnext := ScanState.moduleNext_of_not_definition (s := ⟨none, depth, none⟩) rfl hrole
      show _ = ScanState.moduleRole _ text :: (ScanState.moduleNext _ text).roles below
      rw [hnext]
      rfl
  | @function depth number text name parameters below steps hrole _ ih =>
      rw [List.flatMap_cons, ih]
      have hrole' : (ScanState.mk none depth none).moduleRole text = .definition name parameters :=
        hrole
      show _ = ScanState.moduleRole _ text :: (ScanState.moduleNext _ text).roles below
      rw [ScanState.moduleNext_of_definition hrole', hrole',
        ScanState.roles_block _ _ (number + 1)]
      rfl

/-- **The roles of a source** are those that the machine gives its lines. -/
theorem roles_outline (lines : List Line) :
    (outline lines).flatMap Step.roles = ScanState.initial.roles lines :=
  (outlined_outline lines).roles_eq

def stateBehind (lines : List Line) : ScanState := ScanState.initial.after lines

theorem stateBehind_append (front back : List Line) :
    stateBehind (front ++ back) = (stateBehind front).after back :=
  ScanState.after_append ..

/-! ## Declared variables -/

def Role.declaredVars : Role → List String
  | .definition _ parameters => parameters
  | .code _ scan => scan.writes
  | _ => []

theorem Item.declaredVars_eq (item : Item) : item.declaredVars = item.role.declaredVars := by
  obtain ⟨number, text, role, below⟩ := item
  cases role <;> rfl

theorem Step.declaredVars_eq (step : Step) :
    step.declaredVars = step.roles.flatMap Role.declaredVars := by
  cases step with
  | line item =>
      rw [Step.declaredVars, Step.roles, Item.declaredVars_eq, List.flatMap_singleton]
  | function f =>
      have hbody : f.body.flatMap Item.declaredVars =
          f.body.flatMap (fun item => item.role.declaredVars) :=
        congrArg (f.body.flatMap ·) (funext Item.declaredVars_eq)
      rw [Step.declaredVars, Step.roles, List.flatMap_cons, List.flatMap_map, hbody]
      rfl

theorem mem_declaredVars_iff {lines : List Line} {name : String} :
    name ∈ (analyzeLines lines).declaredVars ↔
      ∃ role ∈ ScanState.initial.roles lines, name ∈ role.declaredVars := by
  have hsteps : (outline lines).flatMap Step.declaredVars =
      ((outline lines).flatMap Step.roles).flatMap Role.declaredVars := by
    rw [List.flatMap_assoc]
    exact congrArg ((outline lines).flatMap ·) (funext Step.declaredVars_eq)
  rw [← roles_outline, ← List.mem_flatMap, ← hsteps]
  exact NameSet.mem_ofList

/-- A name that is declared somewhere is never reported as read before it was written. -/
theorem not_mem_uninitializedVars {lines : List Line} {name : String}
    (h : name ∈ (analyzeLines lines).declaredVars) :
    name ∉ (analyzeLines lines).uninitializedVars := by
  intro hmem
  have hkept := (List.mem_filter.1 hmem).2
  simp only [Bool.and_eq_true, decide_eq_true_eq] at hkept
  exact hkept.1.1.1.1 h

end CodeSurvey.Python
