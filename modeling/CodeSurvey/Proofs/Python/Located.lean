/-
# Python findings stand on their lines

Every step of the scan knows its number and the lines below it, and these are the lines of the
source from that number on (`Step.Placed`); one induction along the outline says so
(`Outlined.placed`).  A finding takes its number from a header or from an item of a body, so it is
the number of a line, and a name or a print call is cut from the text of that line.
-/
import CodeSurvey.Proofs.Pattern.Spans
import CodeSurvey.Proofs.Python.Headers
import CodeSurvey.Proofs.Python.Outline
import CodeSurvey.Proofs.Text.Pieces
import CodeSurvey.Scan.Python

namespace CodeSurvey

open Text

/-- Every line number is that of a line, and the code of print calls, the names of functions and
the names that are imported stand on theirs. -/
structure PythonFindings.Located (lines : List Line) (r : PythonFindings) : Prop where
  printStatements : ∀ p ∈ r.printStatements, OnLine lines p.line p.code.toList
  docstringIssues : ∀ i ∈ r.docstringIssues, IsLine lines i.line
  functionComplexity : ∀ c ∈ r.functionComplexity, OnLine lines c.line c.function.toList
  styleIssues : ∀ i ∈ r.styleIssues, IsLine lines i.line
  commonErrors : ∀ i ∈ r.commonErrors, IsLine lines i.line
  refactorSuggestions : ∀ i ∈ r.refactorSuggestions, IsLine lines i.line
  unusedImports : ∀ i ∈ r.unusedImports, OnLine lines i.line i.name.toList
  deadCode : ∀ i ∈ r.deadCode, IsLine lines i.line
  thirdPartyCode : ∀ i ∈ r.thirdPartyCode, IsLine lines i.line
  performanceIssues : ∀ i ∈ r.performanceIssues, IsLine lines i.line

namespace Python

open Pattern

/-! ## Names are cut from their line -/

theorem isInfix_of_importedName? {segment : List Char} {name : String}
    (h : importedName? segment = some name) : name.toList <:+: segment := by
  have hwhole : ∀ shown : List Char, shown <:+: trim segment →
      (if wholeName.occurs shown then some (String.ofList shown) else none) = some name →
      name.toList <:+: segment := by
    intro shown hshown hname
    split at hname
    · rw [← Option.some.inj hname, String.toList_ofList]
      exact hshown.trans (trim_isInfix segment)
    · cases hname
  have hpiece : ∀ piece ∈ aliasPattern.split (trim segment), trim piece <:+: trim segment :=
    fun piece hpiece => (trim_isInfix piece).trans (isInfix_of_mem_split hpiece)
  unfold importedName? at h
  dsimp only at h
  split at h
  · rename_i first shown others hsplit
    rw [hsplit] at hpiece
    exact hwhole _ (hpiece shown (List.mem_cons_of_mem _ List.mem_cons_self)) h
  · rename_i bound hsplit
    rw [hsplit] at hpiece
    exact hwhole _ ((before_isInfix _ _).trans (hpiece bound List.mem_cons_self)) h
  · exact hwhole [] List.nil_infix h

theorem isInfix_of_importSegments? {trimmed : List Char} {segments : List (List Char)}
    (h : importSegments? trimmed = some segments) : ∀ segment ∈ segments, segment <:+: trimmed := by
  intro segment hsegment
  have hcode := before_isInfix (· == '#') trimmed
  unfold importSegments? at h
  dsimp only at h
  split at h
  · rename_i rest hstrip
    rw [← Option.some.inj h] at hsegment
    have hrest : rest <:+: before (· == '#') trimmed :=
      ⟨"import ".toList, [], by rw [List.append_nil, eq_append_of_stripPrefix? hstrip]⟩
    exact (isInfix_of_mem_splitWhere hsegment).trans (hrest.trans hcode)
  · split at h
    · cases h
    · rename_i m hm
      split at h
      · rw [← Option.some.inj h] at hsegment
        cases hsegment
      · rw [← Option.some.inj h] at hsegment
        have hnames := (isMatch_of_find? hm).groupText_isInfix 2
        exact (isInfix_of_mem_splitWhere hsegment).trans ((trimEndOf_isPrefix _ _).isInfix.trans
          ((List.dropWhile_suffix _).isInfix.trans
            ((trim_isInfix _).trans (hnames.trans hcode))))

theorem isInfix_of_importedNames? {trimmed : List Char} {names : List String}
    (h : importedNames? trimmed = some names) : ∀ name ∈ names, name.toList <:+: trimmed := by
  intro name hname
  obtain ⟨segments, hsegments, rfl⟩ := Option.map_eq_some_iff.1 h
  obtain ⟨segment, hsegment, hfound⟩ := List.mem_filterMap.1 hname
  exact (isInfix_of_importedName? hfound).trans
    (isInfix_of_importSegments? hsegments segment hsegment)

theorem isInfix_of_definition? {trimmed : List Char} {name : String} {parameters : List String}
    (h : definition? trimmed = some (name, parameters)) : name.toList <:+: trimmed := by
  obtain ⟨m, hm, hfound⟩ := Option.map_eq_some_iff.1 h
  rw [← (Prod.mk.inj hfound).1, String.toList_ofList]
  exact (isMatch_of_find? hm).groupText_isInfix 1

theorem isInfix_of_roleAt_imports {depth : Nat} {text : Line} {names : List String}
    (h : roleAt depth text = .imports names) : ∀ name ∈ names, name.toList <:+: text := by
  unfold roleAt at h
  dsimp only at h
  split at h
  · rename_i found hfound
    rw [← Role.imports.inj h]
    exact fun name hname => (isInfix_of_importedNames? hfound name hname).trans (trim_isInfix text)
  · split at h <;> cases h

theorem isInfix_of_roleAt_definition {depth : Nat} {text : Line} {name : String}
    {parameters : List String} (h : roleAt depth text = .definition name parameters) :
    name.toList <:+: text := by
  unfold roleAt at h
  dsimp only at h
  split at h
  · cases h
  · split at h
    · rename_i found _ hfound
      obtain ⟨rfl, rfl⟩ := Role.definition.inj h
      exact (isInfix_of_definition? hfound).trans (trim_isInfix text)
    · cases h

/-! ## Steps in their place -/

/-- An item stands in its place in the source, and the names it imports in its text. -/
structure Item.Placed (lines : List Line) (item : Item) : Prop where
  linesFrom : LinesFrom lines item.number (item.text :: item.below)
  imports : ∀ names, item.role = .imports names → ∀ name ∈ names, name.toList <:+: item.text

/-- A function stands in its place in the source, its name in its header, and its block is the
lines below the header. -/
structure Function.Placed (lines : List Line) (f : Function) : Prop where
  linesFrom : LinesFrom lines f.number (f.header :: f.below)
  name : f.name.toList <:+: f.header
  block : f.block <+: f.below
  body : ∀ item ∈ f.body, item.Placed lines

def Step.Placed (lines : List Line) : Step → Prop
  | .line item => item.Placed lines
  | .function f => f.Placed lines

variable {lines : List Line}

theorem Item.Placed.lineAt {item : Item} (h : item.Placed lines) :
    LineAt lines item.number item.text :=
  h.linesFrom.lineAt

theorem Function.Placed.lineAt {f : Function} (h : f.Placed lines) :
    LineAt lines f.number f.header :=
  h.linesFrom.lineAt

theorem placed_bodyItems {number : Nat} {below : List Line} (hbelow : LinesFrom lines number below)
    (strings : StringState) (depth size : Nat) :
    ∀ item ∈ bodyItems strings depth number size below, item.Placed lines := by
  induction size generalizing strings depth number below with
  | zero => exact fun _ h => absurd h List.not_mem_nil
  | succ size ih =>
      cases below with
      | nil => exact fun _ h => absurd h List.not_mem_nil
      | cons text below =>
          refine List.forall_mem_cons.2 ⟨⟨hbelow, fun names hrole => ?_⟩, ih hbelow.next _ _⟩
          dsimp only at hrole
          repeat' split at hrole
          · cases hrole
          · exact isInfix_of_roleAt_imports hrole
          · cases hrole

theorem placed_functionAt {number : Nat} {header : Line} {name : String} {below : List Line}
    (hbelow : LinesFrom lines number (header :: below)) (hname : name.toList <:+: header)
    (parameters : List String) : (functionAt number header name parameters below).Placed lines where
  linesFrom := hbelow
  name := hname
  block := by
    rw [Function.block, functionAt, bodyItems_text]
    exact List.take_prefix _ _
  body := placed_bodyItems hbelow.next none 0 _

/-- **The steps of an outline stand in their places.** -/
theorem Outlined.placed {strings : StringState} {depth number : Nat} {below : List Line}
    {steps : List Step} (h : Outlined strings depth number below steps)
    (hbelow : LinesFrom lines number below) : ∀ step ∈ steps, step.Placed lines := by
  induction h with
  | done => exact fun _ h => absurd h List.not_mem_nil
  | quoted _ ih =>
      refine List.forall_mem_cons.2 ⟨⟨hbelow, fun names hrole => ?_⟩, ih hbelow.next⟩
      cases hrole
  | line _ _ ih =>
      exact List.forall_mem_cons.2
        ⟨⟨hbelow, fun names hrole => isInfix_of_roleAt_imports hrole⟩, ih hbelow.next⟩
  | function hrole _ ih =>
      exact List.forall_mem_cons.2
        ⟨placed_functionAt hbelow (isInfix_of_roleAt_definition hrole) _, ih (hbelow.next.drop _)⟩

theorem placed_of_mem_items {item : Item} (h : item ∈ (outline lines).flatMap Step.items) :
    item.Placed lines := by
  obtain ⟨step, hstep, hin⟩ := List.mem_flatMap.1 h
  have hplaced := (outlined_outline lines).placed (LinesFrom.first lines) step hstep
  cases step with
  | line other => exact List.mem_singleton.1 hin ▸ hplaced
  | function f => exact hplaced.body item hin

theorem placed_of_mem_functions {f : Function}
    (h : f ∈ (outline lines).filterMap Step.function?) : f.Placed lines := by
  obtain ⟨step, hstep, hfunction⟩ := List.mem_filterMap.1 h
  have hplaced := (outlined_outline lines).placed (LinesFrom.first lines) step hstep
  cases step with
  | line item => cases hfunction
  | function g => exact Option.some.inj hfunction ▸ hplaced

/-! ## Line numbers of remarks -/

theorem getElem?_of_firstContent? {block : List Line} {above : Nat} {line : Line}
    (h : firstContent? block = some (above, line)) : block[above]? = some line := by
  unfold firstContent? at h
  split at h
  · obtain ⟨found, hfound, heq⟩ := Option.map_eq_some_iff.1 h
    obtain ⟨rfl, rfl⟩ := Prod.mk.inj heq
    exact hfound
  · cases h

theorem isLine_of_docstringIssue? {kind name : String} {number : Nat} {header : Line}
    {block below : List Line} (hbelow : LinesFrom lines number (header :: below))
    (hblock : block <+: below) {i : LineIssue}
    (h : docstringIssue? kind name number block = some i) : IsLine lines i.line := by
  unfold docstringIssue? at h
  dsimp only at h
  split at h
  · rw [← Option.some.inj h]
    exact hbelow.lineAt.isLine
  · rename_i above line hfirst
    have hline := getElem?_of_firstContent? hfirst
    have hlineBelow : below[above]? = some line := by
      obtain ⟨others, rfl⟩ := hblock
      rw [List.getElem?_append_left (List.getElem?_eq_some_iff.1 hline).1, hline]
    have hhere : IsLine lines (number + 1 + above) :=
      (hbelow.next.lineAt_of_getElem? hlineBelow).isLine
    repeat' split at h
    · rw [← Option.some.inj h]
      exact hhere
    · cases h
    · rw [← Option.some.inj h]
      exact hhere

theorem Step.Placed.isLine_docstringIssue {step : Step} (h : step.Placed lines) {i : LineIssue}
    (hi : step.docstringIssue? = some i) : IsLine lines i.line := by
  cases step with
  | function f => exact isLine_of_docstringIssue? h.linesFrom h.block hi
  | line item =>
      simp only [Step.docstringIssue?] at hi
      split at hi
      · exact isLine_of_docstringIssue? h.linesFrom (List.takeWhile_prefix _) hi
      · cases hi

theorem line_of_remark? {condition : Bool} {number : Nat} {message : String} {i : LineIssue}
    (h : (if condition then some ⟨number, message⟩ else none) = some i) : i.line = number := by
  split at h
  · rw [← Option.some.inj h]
  · cases h

theorem line_of_mem_unreachable {bodyIndent returnIndent : Option Nat} {item : Item}
    {i : LineIssue} (h : i ∈ (unreachable bodyIndent returnIndent item).1) :
    i.line = item.number := by
  unfold unreachable at h
  dsimp only at h
  repeat' split at h
  · cases h
  · cases h
  · rw [List.mem_singleton.1 h]
  · cases h

theorem exists_item_of_mem_deadCodeFrom {bodyIndent returnIndent : Option Nat}
    {items : List Item} {i : LineIssue} (h : i ∈ deadCodeFrom bodyIndent returnIndent items) :
    ∃ item ∈ items, i.line = item.number := by
  induction items generalizing returnIndent with
  | nil => cases h
  | cons item items ih =>
      rw [deadCodeFrom] at h
      split at h
      · rcases List.mem_append.1 h with h | h
        · refine ⟨item, List.mem_cons_self, ?_⟩
          rcases List.mem_append.1 h with h | h
          · exact line_of_mem_unreachable h
          · exact line_of_remark? (Option.mem_toList.1 h)
        · obtain ⟨other, hother, hline⟩ := ih h
          exact ⟨other, List.mem_cons_of_mem _ hother, hline⟩
      · obtain ⟨other, hother, hline⟩ := ih h
        exact ⟨other, List.mem_cons_of_mem _ hother, hline⟩

theorem Item.Placed.onLine_printStatement? {item : Item} (hitem : item.Placed lines)
    {p : PrintStatement} (h : item.printStatement? = some p) :
    OnLine lines p.line p.code.toList := by
  unfold Item.printStatement? at h
  split at h
  · rw [← Option.some.inj h, Item.code, String.toList_ofList]
    exact hitem.lineAt.onLine (trim_isInfix item.text)
  · cases h

theorem Function.Placed.onLine_complexity {f : Function} (hf : f.Placed lines) :
    OnLine lines f.complexity.line f.complexity.function.toList :=
  hf.lineAt.onLine hf.name

theorem line_of_mem_styleIssues {number : Nat} {line : Line} {i : LineIssue}
    (h : i ∈ styleIssues number line) : i.line = number := by
  unfold styleIssues at h
  dsimp only at h
  rcases List.mem_append.1 h with h | h
  · rcases List.mem_append.1 h with h | h
    all_goals
      split at h
      · rw [List.mem_singleton.1 h]
      · cases h
  · split at h
    · rw [List.mem_singleton.1 h]
    · cases h

/-! ## Imports -/

/-- Every import that was noted stands on its line. -/
def AllOn (lines : List Line) (imports : List ImportedName) : Prop :=
  ∀ i ∈ imports, OnLine lines i.line i.name.toList

theorem AllOn.noteImport {imports : List ImportedName} (h : AllOn lines imports) {name : String}
    {number : Nat} (hname : OnLine lines number name.toList) :
    AllOn lines (noteImport imports name number) := by
  unfold Python.noteImport
  split
  · refine List.forall_mem_map.2 (fun i hi => ?_)
    split
    · rename_i heq
      rw [eq_of_beq heq]
      exact hname
    · exact h i hi
  · exact List.forall_mem_append.2 ⟨h, List.forall_mem_singleton.2 hname⟩

theorem AllOn.noteImports {imports : List ImportedName} (h : AllOn lines imports) {item : Item}
    (hitem : item.Placed lines) : AllOn lines (noteImports imports item) := by
  unfold Python.noteImports
  split
  · rename_i names hrole
    exact List.foldlRecOn names _ h (fun imports h name hname =>
      h.noteImport (hitem.lineAt.onLine (hitem.imports names hrole name hname)))
  · exact h

/-! ## All findings -/

/-- **Python findings stand on their lines.** -/
theorem located_analyzeLines (lines : List Line) : (analyzeLines lines).Located lines := by
  have hsteps := (outlined_outline lines).placed (LinesFrom.first lines)
  have hitems : ∀ item ∈ (outline lines).flatMap Step.items, item.Placed lines :=
    fun _ hitem => placed_of_mem_items hitem
  have hfunctions : ∀ f ∈ (outline lines).filterMap Step.function?, f.Placed lines :=
    fun _ hf => placed_of_mem_functions hf
  have hcomplexity : ∀ c ∈ ((outline lines).filterMap Step.function?).map Function.complexity,
      OnLine lines c.line c.function.toList :=
    List.forall_mem_map.2 (fun f hf => (hfunctions f hf).onLine_complexity)
  constructor
  case printStatements =>
    intro p hp
    obtain ⟨item, hitem, hfound⟩ := List.mem_filterMap.1 hp
    exact (hitems item hitem).onLine_printStatement? hfound
  case docstringIssues =>
    intro i hi
    obtain ⟨step, hstep, hfound⟩ := List.mem_filterMap.1 hi
    exact (hsteps step hstep).isLine_docstringIssue hfound
  case functionComplexity => exact hcomplexity
  case styleIssues =>
    intro i hi
    obtain ⟨n, line, hline, hfound⟩ := lineAt_of_mem_eachLine hi
    rw [line_of_mem_styleIssues hfound]
    exact hline.isLine
  case commonErrors =>
    intro i hi
    obtain ⟨item, hitem, hfound⟩ := List.mem_filterMap.1 (List.mem_eraseDups.1 hi)
    rw [line_of_remark? hfound]
    exact (hitems item hitem).lineAt.isLine
  case refactorSuggestions =>
    intro i hi
    obtain ⟨c, hc, hfound⟩ := List.mem_filterMap.1 hi
    rw [line_of_remark? hfound]
    exact (hcomplexity c hc).isLine
  case unusedImports =>
    have hnoted : AllOn lines (((outline lines).flatMap Step.items).foldl noteImports []) :=
      List.foldlRecOn _ _ (fun _ h => absurd h List.not_mem_nil)
        (fun imports h item hitem => AllOn.noteImports h (hitems item hitem))
    exact fun i hi => hnoted i (List.mem_filter.1 hi).1
  case deadCode =>
    intro i hi
    obtain ⟨f, hf, hfound⟩ := List.mem_flatMap.1 hi
    obtain ⟨item, hitem, hline⟩ := exists_item_of_mem_deadCodeFrom hfound
    rw [hline]
    exact ((hfunctions f hf).body item hitem).lineAt.isLine
  case thirdPartyCode =>
    intro i hi
    obtain ⟨f, hf, hfound⟩ := List.mem_filterMap.1 hi
    obtain ⟨description, -, rfl⟩ := Option.map_eq_some_iff.1 hfound
    exact (hfunctions f hf).lineAt.isLine
  case performanceIssues =>
    intro i hi
    obtain ⟨f, hf, hfound⟩ := List.mem_flatMap.1 (List.mem_eraseDups.1 hi)
    obtain ⟨item, hitem, hissue⟩ := List.mem_filterMap.1 hfound
    rw [line_of_remark? hissue]
    exact ((hfunctions f hf).body item hitem).lineAt.isLine

end Python

end CodeSurvey
