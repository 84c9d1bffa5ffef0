/-
# Names that are used

Names are looked for on one kind of line only: a line that begins outside strings and is neither
an import nor a `def` header (`ReadsCode`).  A name counts as read if it stands to be read on such a
line, and as mentioned if it stands there at all; a variable is unused if nothing reads it, and an
unused import is one that nothing mentions (`unused_iff`).  A header is no such line, so what is
used in an annotation or a default and nowhere else is reported.
-/
import CodeSurvey.Proofs.Python.Depth
import CodeSurvey.Proofs.Python.Headers
import CodeSurvey.Proofs.Python.Imports
import CodeSurvey.Proofs.Python.Names

namespace CodeSurvey.Python

open Text

/-! ## Lines without content -/

theorem run_lineComment (line : Line) :
    Masking.run .hash .lineComment line = (List.replicate line.length ' ', .lineComment) := by
  induction line with
  | nil => rfl
  | cons c line ih =>
      rw [Masking.run_cons, Masking.step, ih]
      rfl

theorem blank_or_comment {text : Line} (h : hasContent text = false) :
    text.dropWhile isBlank = [] ∨ (text.dropWhile isBlank).head? = some '#' := by
  rw [hasContent, Bool.and_eq_false_iff, Bool.not_eq_false', Bool.not_eq_false'] at h
  rcases h with hblank | hcomment
  · exact Or.inl (List.dropWhile_eq_nil_iff.2 (List.all_eq_true.1 hblank))
  · refine Or.inr ?_
    have hhead : (trim text).head? = some '#' := beq_iff_eq.1 hcomment
    obtain ⟨rest, hrest⟩ := trimEndOf_isPrefix isBlank (trimStartOf isBlank text)
    have hstart : text.dropWhile isBlank = trim text ++ rest := hrest.symm
    rw [hstart, List.head?_append, hhead]
    rfl

theorem isBlank_of_mem_maskLine {text : Line} (h : hasContent text = false) :
    ∀ c ∈ maskLine .hash text, isBlank c = true := by
  have hindent : ∀ c ∈ text.takeWhile isBlank, isBlank c = true :=
    fun c hc => List.mem_takeWhile_imp hc
  have hcode : ∀ c ∈ text.takeWhile isBlank, Masking.IsCode .hash c := by
    intro c hc
    refine PlainAssignment.isCode_text (Or.inl ?_)
    rw [isNameText, hindent c hc]
    rfl
  obtain ⟨prev, hrun⟩ := Masking.run_of_isCode hcode none
  have hmode : Masking.Mode.OnLine (.code none) := trivial
  have hmask : maskLine .hash text =
      text.takeWhile isBlank ++ (Masking.run .hash (.code prev) (text.dropWhile isBlank)).1 := by
    show (Masking.run .hash (.code none) text).1 = _
    conv => lhs; rw [← List.takeWhile_append_dropWhile (p := isBlank) (l := text)]
    rw [Masking.run_append hmode, hrun]
  have hrest : ∀ c ∈ (Masking.run .hash (.code prev) (text.dropWhile isBlank)).1,
      isBlank c = true := by
    rcases blank_or_comment h with hnil | hhead
    · rw [hnil]
      exact fun c hc => absurd hc List.not_mem_nil
    · cases hback : text.dropWhile isBlank with
      | nil => exact fun c hc => absurd hc List.not_mem_nil
      | cons d back =>
          rw [hback, List.head?_cons] at hhead
          rw [Option.some.inj hhead, Masking.run_cons, Masking.step, Masking.stepCode_hash,
            if_pos rfl, run_lineComment]
          intro c hc
          rcases List.mem_cons.1 hc with rfl | hc
          · rfl
          · rw [List.eq_of_mem_replicate hc]
            rfl
  intro c hc
  rw [hmask] at hc
  rcases List.mem_append.1 hc with hc | hc
  · exact hindent c hc
  · exact hrest c hc

theorem NameAt.hasContent {text : Line} {front name : List Char}
    (h : NameAt (maskLine .hash text) front name) : hasContent text = true := by
  rw [← Bool.not_eq_false]
  intro hcontent
  obtain ⟨back, hmask, -⟩ := h.ends
  obtain ⟨first, others, rfl, hfirst, -⟩ := h.isName
  have hmem : first ∈ maskLine .hash text := by
    rw [hmask]
    exact List.mem_append_right front (List.mem_append_left back List.mem_cons_self)
  have hblank := isBlank_of_mem_maskLine hcontent first hmem
  rw [not_isNameStart_of_isBlank hblank] at hfirst
  cases hfirst

/-! ## Code lines -/

namespace ScanState

/-- A line that the scan reads as code: outside strings, no import and no header of a function. -/
structure ReadsCode (state : ScanState) (text : Line) : Prop where
  outside : state.stringsAt text = none
  not_import : importedNames? (trim text) = none
  not_definition : definition? (trim text) = none

def codeDepth (state : ScanState) (text : Line) : Nat :=
  match state.blockOf? text with
  | some b => b.depth
  | none => moduleDepth state.depth text

theorem role_eq (state : ScanState) (text : Line) :
    state.role text =
      if (state.stringsAt text).inside then .quoted
      else if (state.blockOf? text).isSome && !hasContent text then .idle
      else roleAt (state.codeDepth text) text := by
  rw [role, stringsAt, codeDepth]
  cases state.blockOf? text with
  | none => rfl
  | some b =>
      dsimp only
      rw [OpenBlock.role]
      cases hasContent text <;> rfl

theorem role_of_readsCode {state : ScanState} {text : Line} (h : state.ReadsCode text)
    (hcontent : hasContent text = true) :
    state.role text =
      .code (className? (trim text)) (scanCode (maskLine .hash text) (state.codeDepth text)) := by
  rw [role_eq, h.outside, hcontent, roleAt, h.not_import, h.not_definition, Bool.not_true,
    Bool.and_false]
  rfl

theorem readsCode_of_role {state : ScanState} {text : Line} {className : Option String}
    {scan : LineScan} (h : state.role text = .code className scan) :
    state.ReadsCode text ∧
      scan = scanCode (maskLine .hash text) (state.codeDepth text) := by
  rw [role_eq] at h
  split at h
  · cases h
  · rename_i houtside
    split at h
    · cases h
    · refine ⟨⟨?_, ?_, ?_⟩, eq_scanCode_of_roleAt h⟩
      · exact Option.not_isSome_iff_eq_none.1 houtside
      · cases himport : importedNames? (trim text) with
        | none => rfl
        | some names =>
            rw [roleAt, himport] at h
            cases h
      · cases hdefinition : definition? (trim text) with
        | none => rfl
        | some found =>
            rw [roleAt_of_definition? hdefinition] at h
            cases h

end ScanState

/-! ## What is found on code lines -/

def Role.scan? : Role → Option LineScan
  | .code _ scan => some scan
  | _ => none

theorem Item.scan?_eq (item : Item) : item.scan? = item.role.scan? := by
  obtain ⟨number, text, role, below⟩ := item
  cases role <;> rfl

theorem Step.scans_eq (step : Step) :
    step.items.filterMap Item.scan? = step.roles.filterMap Role.scan? := by
  have hitems : ∀ items : List Item,
      items.filterMap Item.scan? = (items.map Item.role).filterMap Role.scan? := by
    intro items
    rw [List.filterMap_map]
    exact congrArg (items.filterMap ·) (funext Item.scan?_eq)
  cases step with
  | line item => exact hitems [item]
  | function f => exact hitems f.body

theorem mem_roles_iff {state : ScanState} {lines : List Line} {role : Role} :
    role ∈ state.roles lines ↔
      ∃ front text below, lines = front ++ text :: below ∧
        role = (state.after front).role text := by
  induction lines generalizing state with
  | nil =>
      constructor
      · intro h
        cases h
      · rintro ⟨front, text, below, hlines, -⟩
        exact absurd hlines.symm (List.append_ne_nil_of_right_ne_nil _ (List.cons_ne_nil _ _))
  | cons first lines ih =>
      rw [ScanState.roles, List.mem_cons, ih]
      constructor
      · rintro (rfl | ⟨front, text, below, rfl, rfl⟩)
        · exact ⟨[], first, lines, rfl, rfl⟩
        · exact ⟨first :: front, text, below, rfl, rfl⟩
      · rintro ⟨front, text, below, hlines, rfl⟩
        cases front with
        | nil =>
            obtain ⟨rfl, -⟩ := List.cons.inj hlines
            exact Or.inl rfl
        | cons head front =>
            obtain ⟨rfl, hrest⟩ := List.cons.inj hlines
            exact Or.inr ⟨front, text, below, hrest, rfl⟩

/-- A masked line that the scan of a source reads as code, and the bracket depth it is read at. -/
def CodeLine (lines : List Line) (code : List Char) (depth : Nat) : Prop :=
  ∃ front text below, lines = front ++ text :: below ∧ (stateBehind front).ReadsCode text ∧
    code = maskLine .hash text ∧ depth = (stateBehind front).codeDepth text

/-- **What the scan of a source finds is what it finds on code lines**, if it finds nothing on lines
without content. -/
theorem mem_scans_iff {names : LineScan → List String} {word : String}
    (hcontent : ∀ text depth, word ∈ names (scanCode (maskLine .hash text) depth) →
      hasContent text = true) {lines : List Line} :
    word ∈ ((outline lines).flatMap Step.items).flatMap
        (fun item => (item.scan?.map names).getD []) ↔
      ∃ code depth, CodeLine lines code depth ∧ word ∈ names (scanCode code depth) := by
  have hscans : ((outline lines).flatMap Step.items).filterMap Item.scan? =
      (ScanState.initial.roles lines).filterMap Role.scan? := by
    rw [← roles_outline, List.filterMap_flatMap, List.filterMap_flatMap]
    exact congrArg ((outline lines).flatMap ·) (funext Step.scans_eq)
  have hword : word ∈ ((outline lines).flatMap Step.items).flatMap
        (fun item => (item.scan?.map names).getD []) ↔
      ∃ scan ∈ ((outline lines).flatMap Step.items).filterMap Item.scan?, word ∈ names scan := by
    rw [List.mem_flatMap]
    constructor
    · rintro ⟨item, hitem, hmem⟩
      cases hscan : item.scan? with
      | none =>
          rw [hscan] at hmem
          cases hmem
      | some scan =>
          rw [hscan] at hmem
          exact ⟨scan, List.mem_filterMap.2 ⟨item, hitem, hscan⟩, hmem⟩
    · rintro ⟨scan, hscan, hmem⟩
      obtain ⟨item, hitem, hscan⟩ := List.mem_filterMap.1 hscan
      refine ⟨item, hitem, ?_⟩
      rw [hscan]
      exact hmem
  rw [hword, hscans]
  constructor
  · rintro ⟨scan, hscan, hmem⟩
    obtain ⟨role, hrole, hscan⟩ := List.mem_filterMap.1 hscan
    obtain ⟨front, text, below, rfl, rfl⟩ := mem_roles_iff.1 hrole
    cases hcode : (ScanState.initial.after front).role text with
    | code className found =>
        rw [hcode] at hscan
        obtain rfl := Option.some.inj hscan
        obtain ⟨hreads, rfl⟩ := ScanState.readsCode_of_role hcode
        exact ⟨_, _, ⟨front, text, below, rfl, hreads, rfl, rfl⟩, hmem⟩
    | quoted | idle | imports _ | definition _ _ =>
        rw [hcode] at hscan
        cases hscan
  · rintro ⟨code, depth, ⟨front, text, below, rfl, hreads, rfl, rfl⟩, hmem⟩
    have hcode := ScanState.role_of_readsCode hreads (hcontent _ _ hmem)
    refine ⟨_, List.mem_filterMap.2 ⟨_, mem_roles_iff.2 ⟨front, text, below, rfl, rfl⟩, ?_⟩, hmem⟩
    show ((stateBehind front).role text).scan? = _
    rw [hcode]
    rfl

/-! ## Uses -/

/-- A name stands to be read on a code line of a source. -/
def IsReadIn (lines : List Line) (word : String) : Prop :=
  ∃ code depth, CodeLine lines code depth ∧
    ∃ front name, ReadAt code depth front name ∧ word = String.ofList name

/-- A name stands on a code line of a source. -/
def IsMentionedIn (lines : List Line) (word : String) : Prop :=
  ∃ code depth, CodeLine lines code depth ∧
    ∃ front name, NameAt code front name ∧ word = String.ofList name

def IsImportedIn (lines : List Line) (word : String) : Prop :=
  ∃ names, .imports names ∈ ScanState.initial.roles lines ∧ word ∈ names

theorem IsReadIn.isMentionedIn {lines : List Line} {word : String} (h : IsReadIn lines word) :
    IsMentionedIn lines word := by
  obtain ⟨code, depth, hcode, front, name, hread, hword⟩ := h
  exact ⟨code, depth, hcode, front, name, hread.nameAt, hword⟩

theorem mem_usedVars_iff {lines : List Line} {word : String} :
    word ∈ ((outline lines).flatMap Step.items).flatMap Item.reads ↔ IsReadIn lines word := by
  refine (mem_scans_iff ?_).trans ?_
  · intro text depth hmem
    obtain ⟨front, name, hread, -⟩ := mem_reads_iff.1 hmem
    exact hread.nameAt.hasContent
  · simp only [mem_reads_iff, IsReadIn]

theorem mem_mentions_source_iff {lines : List Line} {word : String} :
    word ∈ ((outline lines).flatMap Step.items).flatMap Item.mentions ↔
      IsMentionedIn lines word := by
  refine (mem_scans_iff ?_).trans ?_
  · intro text depth hmem
    obtain ⟨front, name, hname, -⟩ := mem_mentions_iff.1 hmem
    exact hname.hasContent
  · simp only [mem_mentions_iff, IsMentionedIn]

/-! ## Imports -/

theorem mem_imports_iff {lines : List Line} {word : String} :
    word ∈ ((itemsIn lines).foldl noteImports []).map (·.name) ↔ IsImportedIn lines word := by
  have hroles : ∀ names, .imports names ∈ (itemsIn lines).map Item.role ↔
      .imports names ∈ ScanState.initial.roles lines := by
    intro names
    rw [itemsIn, ← roles_outline, List.map_flatMap, List.mem_flatMap, List.mem_flatMap]
    refine exists_congr (fun step => and_congr Iff.rfl ?_)
    cases step with
    | line item => exact Iff.rfl
    | function f =>
        rw [Step.roles, List.mem_cons]
        refine ⟨Or.inr, ?_⟩
        rintro (heq | hmem)
        · cases heq
        · exact hmem
  rw [(noted_importsIn lines).mem_names_iff, mem_names_importsIn, IsImportedIn]
  simp only [← hroles, List.mem_map]
  constructor
  · rintro ⟨item, hitem, names, hrole, hword⟩
    exact ⟨names, ⟨item, hitem, hrole⟩, hword⟩
  · rintro ⟨names, ⟨item, hitem, hrole⟩, hword⟩
    exact ⟨item, hitem, names, hrole, hword⟩

/-! ## What is unused -/

theorem mem_unusedVars_iff {lines : List Line} {word : String} :
    word ∈ (analyzeLines lines).unusedVars ↔
      word ∈ (analyzeLines lines).declaredVars ∧ isThrowaway word = false ∧
        ¬ IsReadIn lines word := by
  have hused : word ∈ NameSet.ofList (((outline lines).flatMap Step.items).flatMap Item.reads) ↔
      IsReadIn lines word :=
    NameSet.mem_ofList.trans mem_usedVars_iff
  refine List.mem_filter.trans (and_congr Iff.rfl ?_)
  rw [Bool.and_eq_true, decide_eq_true_eq, Bool.not_eq_true', and_comm]
  exact and_congr Iff.rfl (not_congr hused)

theorem mem_unusedImports_iff {lines : List Line} {word : String} :
    word ∈ (analyzeLines lines).unusedImports.map (·.name) ↔
      IsImportedIn lines word ∧ ¬ IsMentionedIn lines word := by
  have hmentioned : ∀ i : ImportedName, decide (i.name ∉ NameSet.ofList
      (((outline lines).flatMap Step.items).flatMap Item.mentions)) = true ↔
        ¬ IsMentionedIn lines i.name := by
    intro i
    rw [decide_eq_true_eq]
    exact not_congr (NameSet.mem_ofList.trans mem_mentions_source_iff)
  rw [← mem_imports_iff]
  constructor
  · intro h
    obtain ⟨i, hi, rfl⟩ := List.mem_map.1 h
    obtain ⟨hmem, hunused⟩ := List.mem_filter.1 hi
    exact ⟨List.mem_map_of_mem hmem, (hmentioned i).1 hunused⟩
  · rintro ⟨hmem, hunused⟩
    obtain ⟨i, hi, rfl⟩ := List.mem_map.1 hmem
    exact List.mem_map_of_mem (List.mem_filter.2 ⟨hi, (hmentioned i).2 hunused⟩)

/-- **What is reported as unused.**  A variable is unused if it is declared, does not begin with an
underscore and is read on no code line; an import is unused if it is mentioned on no code line.  So
whatever is read on a code line is in neither list; a use in the header of a function saves no
name. -/
theorem unused_iff (source word : String) :
    (word ∈ (analyze source).unusedVars ↔
        word ∈ (analyze source).declaredVars ∧ isThrowaway word = false ∧
          ¬ IsReadIn (linesOf source) word) ∧
      (word ∈ (analyze source).unusedImports.map (·.name) ↔
        IsImportedIn (linesOf source) word ∧ ¬ IsMentionedIn (linesOf source) word) ∧
      (IsReadIn (linesOf source) word → word ∉ (analyze source).unusedVars ∧
        word ∉ (analyze source).unusedImports.map (·.name)) := by
  have hvars : word ∈ (analyze source).unusedVars ↔ _ := mem_unusedVars_iff
  have himports : word ∈ (analyze source).unusedImports.map (·.name) ↔ _ := mem_unusedImports_iff
  refine ⟨hvars, himports, ?_⟩
  intro hread
  constructor
  · intro hmem
    exact (hvars.1 hmem).2.2 hread
  · intro hmem
    exact (himports.1 hmem).2 hread.isMentionedIn

/-- An import and a variable that a later line reads. -/
def usesOnCodeLine : String := "from typing import List\nlimit = 3\nprint(List, limit)"

theorem readAt_usesOnCodeLine :
    ReadAt "print(List, limit)".toList 0 "print(".toList "List".toList ∧
      ReadAt "print(List, limit)".toList 0 "print(List, ".toList "limit".toList := by
  have hassignments : assignments "print(List, limit)".toList 0 = [] := by decide
  have htargets : ∀ start, ∀ a ∈ assignments "print(List, limit)".toList 0,
      a.start = start → a.kind = .compound := by
    intro start a ha
    rw [hassignments] at ha
    cases ha
  have hlist : IsName "List".toList := ⟨'L', "ist".toList, rfl, rfl, List.all_eq_true.1 rfl⟩
  have hlimit : IsName "limit".toList := ⟨'l', "imit".toList, rfl, rfl, List.all_eq_true.1 rfl⟩
  constructor
  · exact ⟨⟨hlist, by decide, ", limit)".toList, rfl, by decide⟩, by decide, by decide, htargets _⟩
  · exact ⟨⟨hlimit, by decide, ")".toList, rfl, by decide⟩, by decide, by decide, htargets _⟩

/-- Neither of the two is reported. -/
theorem not_reported_usesOnCodeLine :
    "List" ∉ (analyze usesOnCodeLine).unusedImports.map (·.name) ∧
      "limit" ∉ (analyze usesOnCodeLine).unusedVars := by
  have hcode : CodeLine (linesOf usesOnCodeLine) "print(List, limit)".toList 0 :=
    ⟨["from typing import List".toList, "limit = 3".toList], "print(List, limit)".toList, [],
      by decide, ⟨by decide, by decide, by decide⟩, by decide, by decide⟩
  obtain ⟨hlist, hlimit⟩ := readAt_usesOnCodeLine
  have hreadList : IsReadIn (linesOf usesOnCodeLine) "List" :=
    ⟨_, _, hcode, _, _, hlist, by decide⟩
  have hreadLimit : IsReadIn (linesOf usesOnCodeLine) "limit" :=
    ⟨_, _, hcode, _, _, hlimit, by decide⟩
  exact ⟨((unused_iff usesOnCodeLine "List").2.2 hreadList).2,
    ((unused_iff usesOnCodeLine "limit").2.2 hreadLimit).1⟩

/-- An import and a variable that only the header of a function uses. -/
def usesInHeader : String :=
  "from typing import List\nlimit = 3\ndef f(x: List, y=limit):\n    return x + y"

/-- Both stand in the code of the header, and both are reported. -/
theorem reported_usesInHeader :
    "def f(x: List, y=limit):".toList ∈ linesOf usesInHeader ∧
      importedNames? "def f(x: List, y=limit):".toList = none ∧
      NameAt (maskLine .hash "def f(x: List, y=limit):".toList) "def f(x: ".toList
        "List".toList ∧
      NameAt (maskLine .hash "def f(x: List, y=limit):".toList) "def f(x: List, y=".toList
        "limit".toList ∧
      isKeyword "List" = false ∧ isKeyword "limit" = false ∧
      "List" ∈ (analyze usesInHeader).unusedImports.map (·.name) ∧
      "limit" ∈ (analyze usesInHeader).unusedVars := by
  have hlist : IsName "List".toList := ⟨'L', "ist".toList, rfl, rfl, List.all_eq_true.1 rfl⟩
  have hlimit : IsName "limit".toList := ⟨'l', "imit".toList, rfl, rfl, List.all_eq_true.1 rfl⟩
  refine ⟨by decide, by decide, ?_, ?_, by decide⟩
  · exact ⟨hlist, by decide, ", y=limit):".toList, by decide, by decide⟩
  · exact ⟨hlimit, by decide, "):".toList, by decide, by decide⟩

end CodeSurvey.Python
