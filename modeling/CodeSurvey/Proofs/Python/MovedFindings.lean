/-
# Findings that move with their lines

If the steps of two outlines are the same but for their places, up to steps that show nothing, the
findings are the same but for the numbers of lines (`core_findingsOf`).  Each finding is read off
the steps, their lines or their functions, one after another, and lines that show nothing add to
none.

The places are moved by one function throughout, and a finding is moved by moving the numbers in
it.  A list of findings is a `flatMap` or a fold over steps, so for each there are two things to
show: what a single step gives is moved with it, and a step that shows nothing gives nothing.  The
lists then agree by the general facts on `UpTo`, and no finding needs an induction of its own.
-/
import CodeSurvey.Proofs.FirstSeen
import CodeSurvey.Proofs.Python.CommentLines

namespace CodeSurvey

def PrintStatement.moved (place : Nat) (statement : PrintStatement) : PrintStatement :=
  { statement with line := shift place statement.line }

def Complexity.moved (place : Nat) (complexity : Complexity) : Complexity :=
  { complexity with line := shift place complexity.line }

def ImportedName.moved (place : Nat) (name : ImportedName) : ImportedName :=
  { name with line := shift place name.line }

/-- The findings with every line behind a place one further down. -/
def PythonFindings.moved (place : Nat) (r : PythonFindings) : PythonFindings :=
  { r with
    printStatements := r.printStatements.map (PrintStatement.moved place)
    docstringIssues := r.docstringIssues.map (LineIssue.moved place)
    functionComplexity := r.functionComplexity.map (Complexity.moved place)
    styleIssues := r.styleIssues.map (LineIssue.moved place)
    commonErrors := r.commonErrors.map (LineIssue.moved place)
    refactorSuggestions := r.refactorSuggestions.map (LineIssue.moved place)
    unusedImports := r.unusedImports.map (ImportedName.moved place)
    deadCode := r.deadCode.map (LineIssue.moved place)
    thirdPartyCode := r.thirdPartyCode.map (LineIssue.moved place)
    performanceIssues := r.performanceIssues.map (LineIssue.moved place) }

/-- The findings without those on style and those that compare the text of functions. -/
def PythonFindings.core (r : PythonFindings) : PythonFindings :=
  { r with styleIssues := [], duplicateFunctions := [], thirdPartyCode := [] }

theorem LineIssue.moved_injective (place : Nat) : Function.Injective (LineIssue.moved place) := by
  rintro ⟨n, message⟩ ⟨n', message'⟩ h
  obtain ⟨hline, rfl⟩ := LineIssue.mk.inj h
  have hnumber : n = n' := by
    dsimp only at hline
    unfold shift at hline
    split at hline <;> split at hline <;> omega
  rw [hnumber]

namespace Python

open Text Pattern

/-! ## Lines -/

/-- A line that shows nothing: passed over in a block, or without content. -/
inductive Item.ShowsNothing (item : Item) : Prop
  | passed : item.isActive = false → item.ShowsNothing
  | contentless : hasContent item.text = false → item.role = .code none .nothing →
      item.ShowsNothing

theorem role_of_not_isActive {item : Item} (h : item.isActive = false) :
    item.role = .quoted ∨ item.role = .idle := by
  rw [Item.isActive, Bool.and_eq_false_iff, bne_eq_false_iff_eq, bne_eq_false_iff_eq] at h
  exact h

theorem Item.ShowsNothing.eq_nil {β : Type} {item : Item} (h : item.ShowsNothing)
    {read : Role → List β} (hquoted : read .quoted = []) (hidle : read .idle = [])
    (hnothing : read (.code none .nothing) = []) : read item.role = [] := by
  cases h with
  | passed hpassed =>
      rcases role_of_not_isActive hpassed with hrole | hrole
      · rw [hrole, hquoted]
      · rw [hrole, hidle]
  | contentless _ hrole => rw [hrole, hnothing]

section Moved

variable {place : Nat} {items items' : List Item} {f g : Function} {steps steps' : List Step}

/-- Lines that have moved, up to lines that show nothing. -/
abbrev MovedItems (place : Nat) : List Item → List Item → Prop :=
  UpTo (Item.Moved place) Item.ShowsNothing

theorem MovedItems.of_body (h : MovedBody place items items') : MovedItems place items items' :=
  h.imp (fun _ _ hmoved => hmoved.toMoved) (fun _ => .passed)

theorem MovedItems.of_steps (h : UpTo (Step.Moved place) Step.IsIdle steps steps') :
    MovedItems place (steps.flatMap Step.items) (steps'.flatMap Step.items) := by
  refine h.flatMap ?_ ?_
  · rintro _ ⟨hcontent, hrole⟩ item hitem
    rw [List.mem_singleton.1 hitem]
    exact .contentless hcontent hrole
  · rintro _ _ (⟨hmoved, -⟩ | hmoved)
    · exact .both hmoved .nil
    · exact MovedItems.of_body hmoved.body

theorem MovedItems.flatMap_role {β : Type} (h : MovedItems place items items')
    {read : Item → List β} (readRole : Role → List β)
    (hread : ∀ item, read item = readRole item.role)
    (hquoted : readRole .quoted = []) (hidle : readRole .idle = [])
    (hnothing : readRole (.code none .nothing) = []) :
    items'.flatMap read = items.flatMap read := by
  refine h.flatMap_same ?_ ?_
  · intro item hitem
    rw [hread, hitem.eq_nil hquoted hidle hnothing]
  · intro old new hmoved
    rw [hread, hread, hmoved.role]

/-! ### Names -/

def Role.declaredFunctions : Role → List String
  | .definition name _ => [name]
  | _ => []

def Role.boundNames : Role → List String
  | .imports names => names
  | .definition name _ => [name]
  | .code className _ => className.toList
  | _ => []

theorem Item.declaredFunctions_eq (item : Item) :
    item.declaredFunctions = item.role.declaredFunctions := by
  obtain ⟨number, text, role, below⟩ := item
  cases role <;> rfl

theorem Item.boundNames_eq (item : Item) : item.boundNames = item.role.boundNames := by
  obtain ⟨number, text, role, below⟩ := item
  cases role <;> rfl

theorem MovedItems.flatMap_scan (h : MovedItems place items items')
    {names : LineScan → List String} (hnames : names .nothing = []) :
    items'.flatMap (fun item => (item.scan?.map names).getD []) =
      items.flatMap (fun item => (item.scan?.map names).getD []) :=
  h.flatMap_role (fun role => (role.scan?.map names).getD [])
    (fun item => by rw [Item.scan?_eq]) rfl rfl hnames

theorem flatMap_steps {read : Step → List String} (head : Function → List String)
    {readRole : Role → List String}
    (hline : ∀ item, read (.line item) = readRole item.role)
    (hfunction : ∀ f,
      read (.function f) = head f ++ f.body.flatMap (fun item => readRole item.role))
    (hhead : ∀ f g : Function, f.Moved place g → head g = head f)
    (hquoted : readRole .quoted = []) (hidle : readRole .idle = [])
    (hnothing : readRole (.code none .nothing) = [])
    (h : UpTo (Step.Moved place) Step.IsIdle steps steps') :
    steps'.flatMap read = steps.flatMap read := by
  refine h.flatMap_same ?_ ?_
  · rintro _ ⟨-, hrole⟩
    rw [hline, hrole, hnothing]
  · rintro _ _ (⟨hmoved, -⟩ | hmoved)
    · rw [hline, hline, hmoved.role]
    · rw [hfunction, hfunction, hhead _ _ hmoved]
      refine congrArg (_ ++ ·) ?_
      exact (MovedItems.of_body hmoved.body).flatMap_role readRole (fun _ => rfl) hquoted hidle
        hnothing

theorem declaredFunctions_eq (h : UpTo (Step.Moved place) Step.IsIdle steps steps') :
    steps'.flatMap Step.declaredFunctions = steps.flatMap Step.declaredFunctions := by
  refine flatMap_steps (fun f => [f.name]) Item.declaredFunctions_eq ?_ ?_ rfl rfl rfl h
  · intro f
    rw [← funext Item.declaredFunctions_eq]
    rfl
  · intro f g hmoved
    rw [hmoved.name]

theorem declaredVars_eq (h : UpTo (Step.Moved place) Step.IsIdle steps steps') :
    steps'.flatMap Step.declaredVars = steps.flatMap Step.declaredVars := by
  refine flatMap_steps Function.parameters Item.declaredVars_eq ?_ ?_ rfl rfl rfl h
  · intro f
    rw [← funext Item.declaredVars_eq]
    rfl
  · exact fun f g hmoved => hmoved.parameters

theorem boundNames_eq (h : UpTo (Step.Moved place) Step.IsIdle steps steps') :
    steps'.flatMap Step.boundNames = steps.flatMap Step.boundNames := by
  refine flatMap_steps (fun f => [f.name]) Item.boundNames_eq ?_ ?_ rfl rfl rfl h
  · intro f
    rw [← funext Item.boundNames_eq]
    rfl
  · intro f g hmoved
    rw [hmoved.name]

/-! ### Remarks on lines -/

theorem scan?_of_not_isActive {item : Item} (h : item.isActive = false) : item.scan? = none := by
  rw [Item.scan?_eq]
  rcases role_of_not_isActive h with hrole | hrole
  · rw [hrole]; rfl
  · rw [hrole]; rfl

theorem Item.Moved.scan?_eq {old new : Item} (h : old.Moved place new) :
    new.scan? = old.scan? := by
  rw [Item.scan?_eq, Item.scan?_eq, h.role]

theorem printStatements_eq (h : MovedItems place items items') :
    items'.filterMap Item.printStatement? =
      (items.filterMap Item.printStatement?).map (PrintStatement.moved place) := by
  refine h.filterMap_eq ?_ ?_
  · rintro item (hpassed | ⟨hcontent, -⟩)
    · rw [Item.printStatement?, scan?_of_not_isActive hpassed]
      rfl
    · rw [Item.printStatement?, not_print_of_contentless hcontent, Bool.and_false]
      rfl
  · intro old new hmoved
    rw [Item.printStatement?, Item.printStatement?, hmoved.scan?_eq, hmoved.text, Item.code,
      Item.code, hmoved.text, hmoved.number]
    split <;> rfl

theorem commonErrors_eq (h : MovedItems place items items') :
    items'.filterMap Item.indexIssue? =
      (items.filterMap Item.indexIssue?).map (LineIssue.moved place) := by
  refine h.filterMap_eq ?_ ?_
  · rintro item (hpassed | ⟨-, hrole⟩)
    · rw [Item.indexIssue?, scan?_of_not_isActive hpassed]
      rfl
    · rw [Item.indexIssue?, Item.scan?_eq, hrole]
      rfl
  · intro old new hmoved
    rw [Item.indexIssue?, Item.indexIssue?, hmoved.scan?_eq, hmoved.number]
    split <;> rfl

theorem noteImport_moved (imports : List ImportedName) (name : String) (line : Nat) :
    noteImport (imports.map (ImportedName.moved place)) name (shift place line) =
      (noteImport imports name line).map (ImportedName.moved place) := by
  have hany : (imports.map (ImportedName.moved place)).any (·.name == name) =
      imports.any (·.name == name) := by
    rw [List.any_map]
    rfl
  rw [noteImport, noteImport, hany]
  split
  · rw [List.map_map, List.map_map]
    refine congrArg (imports.map ·) (funext (fun i => ?_))
    rw [Function.comp_apply, Function.comp_apply, ImportedName.moved]
    by_cases hname : (i.name == name) = true
    · rw [if_pos hname, if_pos hname]
      rfl
    · rw [if_neg hname, if_neg hname]
      rfl
  · rw [List.map_append]
    rfl

theorem noteImports_moved {old new : Item} (hmoved : old.Moved place new)
    (imports : List ImportedName) :
    noteImports (imports.map (ImportedName.moved place)) new =
      (noteImports imports old).map (ImportedName.moved place) := by
  have hfold : ∀ (names : List String) (imports : List ImportedName),
      names.foldl (fun acc name => noteImport acc name (shift place old.number))
          (imports.map (ImportedName.moved place)) =
        (names.foldl (fun acc name => noteImport acc name old.number) imports).map
          (ImportedName.moved place) := by
    intro names
    induction names with
    | nil => exact fun _ => rfl
    | cons name names ih =>
        intro imports
        rw [List.foldl_cons, List.foldl_cons, noteImport_moved, ih]
  rw [noteImports, noteImports, hmoved.role, hmoved.number]
  split
  · exact hfold _ imports
  · rfl

theorem imports_eq (h : MovedItems place items items') :
    items'.foldl noteImports [] = (items.foldl noteImports []).map (ImportedName.moved place) := by
  refine h.foldl_eq ?_ (fun imports old new hmoved => noteImports_moved hmoved imports) []
  intro imports item hitem
  rcases hitem with hpassed | ⟨-, hrole⟩
  · rcases role_of_not_isActive hpassed with hrole | hrole
    · rw [noteImports, hrole]
    · rw [noteImports, hrole]
  · rw [noteImports, hrole]

theorem docstringIssues_eq (h : UpTo (Step.Moved place) Step.IsIdle steps steps') :
    steps'.filterMap Step.docstringIssue? =
      (steps.filterMap Step.docstringIssue?).map (LineIssue.moved place) := by
  refine h.filterMap_eq ?_ ?_
  · rintro _ ⟨-, hrole⟩
    rw [Step.docstringIssue?, hrole]
  · rintro _ _ (⟨hmoved, hclass⟩ | hmoved)
    · rw [Step.docstringIssue?, Step.docstringIssue?, hmoved.role]
      split
      · rename_i name scan hrole
        exact hclass name scan hrole
      · rfl
    · exact hmoved.docstring

/-! ### Functions -/

abbrev MovedFunctions (place : Nat) : List Function → List Function → Prop :=
  UpTo (Function.Moved place) (fun _ => False)

theorem MovedFunctions.of_steps (h : UpTo (Step.Moved place) Step.IsIdle steps steps') :
    MovedFunctions place (steps.filterMap Step.function?) (steps'.filterMap Step.function?) := by
  rw [List.filterMap_eq_flatMap_toList, List.filterMap_eq_flatMap_toList]
  refine h.flatMap ?_ ?_
  · rintro _ ⟨-, -⟩ f hf
    cases hf
  · rintro _ _ (⟨-, -⟩ | hmoved)
    · exact .nil
    · exact .both hmoved .nil

theorem unreachable_moved {old new : Item} (hmoved : old.Moved place new)
    (bodyIndent returnIndent : Option Nat) :
    unreachable bodyIndent returnIndent new =
      ((unreachable bodyIndent returnIndent old).1.map (LineIssue.moved place),
        (unreachable bodyIndent returnIndent old).2) := by
  unfold unreachable
  dsimp only
  rw [hmoved.text, hmoved.number]
  split
  · rfl
  · cases returnIndent with
    | none => rfl
    | some limit =>
        dsimp only
        split <;> rfl

theorem ifFalseIssue?_moved {old new : Item} (hmoved : old.Moved place new) :
    new.ifFalseIssue? = old.ifFalseIssue?.map (LineIssue.moved place) := by
  rw [Item.ifFalseIssue?, Item.ifFalseIssue?, hmoved.scan?_eq, hmoved.text, hmoved.number]
  split <;> rfl

theorem deadCodeFrom_eq (h : MovedBody place items items') (bodyIndent returnIndent : Option Nat) :
    deadCodeFrom bodyIndent returnIndent items' =
      (deadCodeFrom bodyIndent returnIndent items).map (LineIssue.moved place) := by
  induction h generalizing returnIndent with
  | nil => rfl
  | left hpassed _ ih => rw [deadCodeFrom, if_neg (Bool.eq_false_iff.1 hpassed), ih]
  | right hpassed _ ih => rw [deadCodeFrom, if_neg (Bool.eq_false_iff.1 hpassed), ih]
  | @both old new olds news hmoved _ ih =>
      have hactive : new.isActive = old.isActive := by
        rw [Item.isActive, Item.isActive, hmoved.role]
      rw [deadCodeFrom, deadCodeFrom, hactive, unreachable_moved hmoved.toMoved,
        ifFalseIssue?_moved hmoved.toMoved]
      split
      · dsimp only
        rw [ih, List.map_append, List.map_append, Option.toList_map]
      · exact ih _

theorem isLoop_moved {old new : Item} (hmoved : old.Moved place new) :
    new.isLoop = old.isLoop := by
  rw [Item.isLoop, Item.isLoop, hmoved.scan?_eq, hmoved.text]

theorem not_isLoop_of_not_isActive {item : Item} (h : item.isActive = false) :
    item.isLoop = false := by
  rw [Item.isLoop, scan?_of_not_isActive h]
  rfl

theorem performanceIssues_body (h : MovedBody place items items') :
    items'.filterMap Item.loopIssue? =
      (items.filterMap Item.loopIssue?).map (LineIssue.moved place) := by
  refine h.filterMap_eq ?_ ?_
  · intro item hpassed
    rw [Item.loopIssue?, not_isLoop_of_not_isActive hpassed]
    rfl
  · intro old new hmoved
    rw [Item.loopIssue?, Item.loopIssue?, isLoop_moved hmoved.toMoved, hmoved.number]
    cases hloop : old.isLoop with
    | false => rfl
    | true =>
        rw [hmoved.loop hloop]
        split <;> rfl

theorem complexity_moved (h : f.Moved place g) :
    g.complexity = f.complexity.moved place := by
  have hloops : g.body.countP Item.isLoop = f.body.countP Item.isLoop :=
    h.body.countP_eq (fun _ => not_isLoop_of_not_isActive)
      (fun _ _ hmoved => isLoop_moved hmoved.toMoved)
  have hcalls := h.body.total_eq
    (f := fun item => (item.scan?.map (·.callTokens.length)).getD 0)
    (fun item hpassed => by rw [scan?_of_not_isActive hpassed]; rfl)
    (fun old new hmoved => by rw [hmoved.toMoved.scan?_eq])
  rw [Function.complexity, hloops, hcalls, h.name, h.number]
  rfl

theorem usage_moved (h : f.Moved place g) : g.usage = f.usage := by
  rw [Function.usage, Function.usage, h.parameters]
  refine h.body.foldl_same ?_ ?_ _
  · intro usage item hpassed
    rcases role_of_not_isActive hpassed with hrole | hrole
    · rw [Usage.add, hrole]
    · rw [Usage.add, hrole]
  · intro usage old new hmoved
    rw [Usage.add, Usage.add, hmoved.role]

theorem deadCode_eq {functions functions' : List Function}
    (h : MovedFunctions place functions functions') :
    functions'.flatMap Function.deadCode =
      (functions.flatMap Function.deadCode).map (LineIssue.moved place) := by
  refine h.flatMap_eq (fun _ hfalse => hfalse.elim) (fun f g hmoved => ?_)
  rw [Function.deadCode, Function.deadCode, hmoved.bodyIndent]
  exact deadCodeFrom_eq hmoved.body _ _

theorem performanceIssues_eq {functions functions' : List Function}
    (h : MovedFunctions place functions functions') :
    functions'.flatMap (·.body.filterMap Item.loopIssue?) =
      (functions.flatMap (·.body.filterMap Item.loopIssue?)).map (LineIssue.moved place) :=
  h.flatMap_eq (fun _ hfalse => hfalse.elim) (fun _ _ hmoved => performanceIssues_body hmoved.body)

theorem advice?_moved (complexity : Complexity) :
    Complexity.advice? (complexity.moved place) =
      (Complexity.advice? complexity).map (LineIssue.moved place) := by
  rw [Complexity.advice?, Complexity.advice?, Complexity.moved]
  split <;> rfl

theorem advice_eq (complexities : List Complexity) :
    (complexities.map (Complexity.moved place)).filterMap Complexity.advice? =
      (complexities.filterMap Complexity.advice?).map (LineIssue.moved place) := by
  rw [List.filterMap_map, List.map_filterMap]
  exact congrArg (complexities.filterMap ·) (funext advice?_moved)

theorem unusedImports_eq (imports : List ImportedName) (mentions : NameSet) :
    (imports.map (ImportedName.moved place)).filter (·.name ∉ mentions) =
      (imports.filter (·.name ∉ mentions)).map (ImportedName.moved place) := by
  rw [List.filter_map]
  rfl

/-! ## All findings -/

/-- **The findings of outlines that are the same but for their places** are the same but for the
numbers of lines. -/
theorem core_findingsOf (h : UpTo (Step.Moved place) Step.IsIdle steps steps')
    (lines lines' : List Line) :
    (findingsOf lines' steps').core = (findingsOf lines steps).core.moved place := by
  have hitems := MovedItems.of_steps h
  have hfunctions := MovedFunctions.of_steps h
  have hcomplexity := hfunctions.map_eq (fun _ _ hmoved => complexity_moved hmoved)
  have hopen : (steps'.filterMap Step.function?).flatMap (·.usage.openReads.toList) =
      (steps.filterMap Step.function?).flatMap (·.usage.openReads.toList) :=
    hfunctions.flatMap_same (fun _ hfalse => hfalse.elim)
      (fun f g hmoved => by rw [usage_moved hmoved])
  have hreads : (steps'.flatMap Step.items).flatMap Item.reads =
      (steps.flatMap Step.items).flatMap Item.reads := hitems.flatMap_scan rfl
  have hmentions : (steps'.flatMap Step.items).flatMap Item.mentions =
      (steps.flatMap Step.items).flatMap Item.mentions := hitems.flatMap_scan rfl
  have hcalled : (steps'.flatMap Step.items).flatMap Item.calledFunctions =
      (steps.flatMap Step.items).flatMap Item.calledFunctions :=
    hitems.flatMap_role
      (fun role => ((role.scan?.map LineScan.callTokens).getD []).filter (!isKeyword ·))
      (fun item => by rw [Item.calledFunctions, Item.scan?_eq]) rfl rfl rfl
  have hunused : ∀ used, (steps'.filterMap Step.function?).filterMap (Function.unusedWrites? used) =
      (steps.filterMap Step.function?).filterMap (Function.unusedWrites? used) := by
    intro used
    rw [List.filterMap_eq_flatMap_toList,
      List.filterMap_eq_flatMap_toList (Function.unusedWrites? used)]
    refine hfunctions.flatMap_same (fun _ hfalse => hfalse.elim) (fun f g hmoved => ?_)
    rw [Function.unusedWrites?, Function.unusedWrites?, usage_moved hmoved, hmoved.name]
  simp only [findingsOf, PythonFindings.core, PythonFindings.moved, declaredFunctions_eq h,
    declaredVars_eq h, boundNames_eq h, hreads, hmentions, hcalled, hopen, hunused,
    printStatements_eq hitems, commonErrors_eq hitems, docstringIssues_eq h, hcomplexity, advice_eq,
    imports_eq hitems, unusedImports_eq, deadCode_eq hfunctions, performanceIssues_eq hfunctions,
    eraseDups_map (LineIssue.moved_injective place), List.map_nil]

end Moved

end Python

end CodeSurvey
