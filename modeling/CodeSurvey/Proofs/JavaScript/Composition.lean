/-
# The JavaScript pass is compositional

The findings of lines followed by other lines are put together from the findings of both
(`JavaScriptFindings.Joined`), if no block comment is open between them.  For then each line of the
second part is masked as it is alone, and has only moved (`codeLines_append`).  What a finding lists
line by line is listed for the first part and then, with the numbers moved, for the second; what is
merged or counted over all lines is merged and counted over both.
-/
import CodeSurvey.Proofs.JavaScript.Merging
import CodeSurvey.Proofs.Masking
import CodeSurvey.Proofs.Text.Endings

namespace CodeSurvey

open Text Masking

def NumberLiteral.moved (n : Nat) (l : NumberLiteral) : NumberLiteral :=
  { l with line := l.line + n }

/-- A reminder further down. -/
def TodoComment.moved (n : Nat) (t : TodoComment) : TodoComment := { t with line := t.line + n }

namespace JavaScript

open Pattern

/-! ## What is counted -/

/-- How often a character occurs in lines as they stand. -/
def rawCount (c : Char) (lines : List Line) : Nat := Count.total (lines.map (·.count c))

/-- The remark on brackets of a kind that are opened and closed so many times. -/
def imbalance (opening closing : Char) (opened closed : Nat) : List String :=
  if opened = closed then []
  else ["Count of '" ++ String.singleton opening ++ "' (" ++ toString opened ++
    ") differs from '" ++ String.singleton closing ++ "' (" ++ toString closed ++ ")."]

/-- How often the call scan finds a name. -/
def callCount (lines : List Line) (name : String) : Nat :=
  ((codeLines lines).flatMap CodeLine.calls).count name

def headerCount (lines : List Line) (name : String) : Nat :=
  ((codeLines lines).flatMap (CodeLine.names functionPattern)).count name

def identifierCount (lines : List Line) (name : String) : Nat :=
  ((codeLines lines).flatMap CodeLine.identifiers).count name

/-- How often a name is declared as that of a variable. -/
def declarationCount (lines : List Line) (name : String) : Nat :=
  ((codeLines lines).flatMap (CodeLine.names variablePattern)).count name

end JavaScript

open JavaScript

/-- The findings `r` of some lines followed by others, put together from the findings of both. -/
structure JavaScriptFindings.Joined (r : JavaScriptFindings) (front back : List Line)
    (a b : JavaScriptFindings) : Prop where
  varUsage : r.varUsage = a.varUsage ++ b.varUsage.map (· + front.length)
  letUsage : r.letUsage = a.letUsage ++ b.letUsage.map (· + front.length)
  constUsage : r.constUsage = a.constUsage ++ b.constUsage.map (· + front.length)
  evalUsage : r.evalUsage = a.evalUsage ++ b.evalUsage.map (· + front.length)
  documentWriteUsage :
    r.documentWriteUsage = a.documentWriteUsage ++ b.documentWriteUsage.map (· + front.length)
  consoleLogUsage :
    r.consoleLogUsage = a.consoleLogUsage ++ b.consoleLogUsage.map (· + front.length)
  todoComments :
    r.todoComments = a.todoComments ++ b.todoComments.map (·.moved front.length)
  longLines : r.longLines = a.longLines ++ b.longLines.map (· + front.length)
  magicNumbers : r.magicNumbers = a.magicNumbers ++ b.magicNumbers.map (·.moved front.length)
  semicolonMissing :
    r.semicolonMissing = a.semicolonMissing ++ b.semicolonMissing.map (· + front.length)
  doubleEquals : r.doubleEquals = a.doubleEquals ++ b.doubleEquals.map (· + front.length)
  tripleEquals : r.tripleEquals = a.tripleEquals ++ b.tripleEquals.map (· + front.length)
  arrowFunctions :
    r.arrowFunctions = a.arrowFunctions ++ b.arrowFunctions.map (·.moved front.length)
  anonymousFunctions :
    r.anonymousFunctions = a.anonymousFunctions ++ b.anonymousFunctions.map (·.moved front.length)
  /-- A name keeps the place of its first declaration and takes the line of its last. -/
  declaredFunctions : r.declaredFunctions =
    lastDeclarations (a.declaredFunctions ++ b.declaredFunctions.map (·.moved front.length))
  declaredVariables : r.declaredVariables =
    lastDeclarations (a.declaredVariables ++ b.declaredVariables.map (·.moved front.length))
  /-- What is not used in one part may be used in the other, so the counts of both decide. -/
  unusedFunctions : r.unusedFunctions = r.declaredFunctions.filter (fun f =>
    callCount front f.name + callCount back f.name ≤
      headerCount front f.name + headerCount back f.name)
  unusedVariables : r.unusedVariables = r.declaredVariables.filter (fun v =>
    identifierCount front v.name + identifierCount back v.name ≤
      declarationCount front v.name + declarationCount back v.name)
  /-- Brackets may be opened in one part and closed in the other. -/
  syntaxErrors : r.syntaxErrors =
    imbalance '{' '}' (rawCount '{' front + rawCount '{' back)
        (rawCount '}' front + rawCount '}' back) ++
      imbalance '(' ')' (rawCount '(' front + rawCount '(' back)
        (rawCount ')' front + rawCount ')' back)
  lintProblems : r.lintProblems = none

namespace JavaScript

open Pattern

/-! ## Lines that have moved -/

/-- A line further down. -/
def CodeLine.moved (n : Nat) (l : CodeLine) : CodeLine := { l with number := l.number + n }

theorem pairLines_moved (n number : Nat) (texts codes : List Line) :
    pairLines (number + n) texts codes = (pairLines number texts codes).map (·.moved n) := by
  induction texts generalizing number codes with
  | nil => rfl
  | cons text texts ih =>
      cases codes with
      | nil => rfl
      | cons code codes =>
          rw [pairLines, pairLines, List.map_cons, ← ih, Nat.add_right_comm]
          rfl

theorem pairLines_append {texts codes : List Line} (h : codes.length = texts.length)
    (number : Nat) (texts' codes' : List Line) :
    pairLines number (texts ++ texts') (codes ++ codes') =
      pairLines number texts codes ++ pairLines (number + texts.length) texts' codes' := by
  induction texts generalizing number codes with
  | nil =>
      obtain rfl := List.length_eq_zero_iff.1 h
      rfl
  | cons text texts ih =>
      cases codes with
      | nil => cases h
      | cons code codes =>
          rw [List.cons_append, List.cons_append, pairLines, pairLines, List.cons_append,
            ih (Nat.succ.inj h), List.length_cons, Nat.add_assoc number 1, Nat.add_comm 1]

/-- **Behind closed lines, the others have only moved.** -/
theorem codeLines_append {front : List Line} (h : blockBehind .slashes false front = false)
    (back : List Line) :
    codeLines (front ++ back) =
      codeLines front ++ (codeLines back).map (·.moved front.length) := by
  rw [codeLines, maskLines_append h, pairLines_append (length_maskLines .slashes front),
    pairLines_moved]
  rfl

theorem texts_pairLines {texts codes : List Line} (h : codes.length = texts.length)
    (number : Nat) : (pairLines number texts codes).map (·.text) = texts := by
  induction texts generalizing number codes with
  | nil => rfl
  | cons text texts ih =>
      cases codes with
      | nil => cases h
      | cons code codes => rw [pairLines, List.map_cons, ih (Nat.succ.inj h)]

theorem texts_codeLines (lines : List Line) : (codeLines lines).map (·.text) = lines :=
  texts_pairLines (length_maskLines .slashes lines) 1

/-! ## Findings of moved lines -/

section Moved

variable {α : Type} {n : Nat} {front back : List CodeLine}

/-- A rule that does not look at the number holds of the same lines. -/
theorem linesWhere_joined {rule : CodeLine → Bool} (h : ∀ l, rule (l.moved n) = rule l) :
    linesWhere rule (front ++ back.map (·.moved n)) =
      linesWhere rule front ++ (linesWhere rule back).map (· + n) := by
  have hrule : rule ∘ CodeLine.moved n = rule := funext h
  rw [linesWhere, List.filter_append, List.map_append, List.filter_map, hrule, List.map_map,
    linesWhere, linesWhere, List.map_map]
  rfl

theorem filterMap_joined {f : CodeLine → Option α} {g : α → α}
    (h : ∀ l, f (l.moved n) = (f l).map g) :
    (front ++ back.map (·.moved n)).filterMap f =
      front.filterMap f ++ (back.filterMap f).map g := by
  rw [List.filterMap_append, List.filterMap_map, List.map_filterMap]
  exact congrArg (front.filterMap f ++ ·) (List.filterMap_congr (fun l _ => h l))

theorem flatMap_joined {f : CodeLine → List α} {g : α → α}
    (h : ∀ l, f (l.moved n) = (f l).map g) :
    (front ++ back.map (·.moved n)).flatMap f = front.flatMap f ++ (back.flatMap f).map g := by
  rw [List.flatMap_append, List.flatMap_map, List.map_flatMap]
  exact congrArg (front.flatMap f ++ ·) (List.flatMap_congr (fun l _ => h l))

theorem count_joined [BEq α] {f : CodeLine → List α} (h : ∀ l, f (l.moved n) = f l) (a : α) :
    ((front ++ back.map (·.moved n)).flatMap f).count a =
      (front.flatMap f).count a + (back.flatMap f).count a := by
  rw [flatMap_joined (g := id) (fun l => by rw [h, List.map_id]), List.map_id, List.count_append]

end Moved

namespace CodeLine

variable (n : Nat) (l : CodeLine)

theorem locate_moved (names : List String) :
    (l.moved n).locate names = (l.locate names).map (·.moved n) := by
  rw [locate, locate, List.map_map]
  rfl

theorem firstName?_moved (pattern : Pattern) :
    (l.moved n).firstName? pattern = (l.firstName? pattern).map (·.moved n) := by
  rw [firstName?, firstName?, Option.map_map]
  rfl

theorem functions_moved : (l.moved n).functions = l.functions.map (·.moved n) := by
  have hfirst : ∀ pattern, ((l.moved n).firstName? pattern).toList =
      (l.firstName? pattern).toList.map (·.moved n) := by
    intro pattern
    rw [firstName?_moved]
    cases l.firstName? pattern <;> rfl
  have hnames : (l.moved n).names functionPattern = l.names functionPattern := rfl
  rw [functions, functions, arrow?, arrow?, anonymous?, anonymous?, hfirst, hfirst, hnames,
    locate_moved, List.map_append, List.map_append]

theorem magicNumbers_moved : (l.moved n).magicNumbers = l.magicNumbers.map (·.moved n) := by
  rw [magicNumbers, magicNumbers, List.map_map]
  rfl

theorem todo?_moved : (l.moved n).todo? = l.todo?.map (·.moved n) := by
  show (if todoPattern.occurs l.text then some _ else none) = _
  rw [todo?]
  split <;> rfl

end CodeLine

/-! ## All findings -/

theorem total_codeLines (c : Char) (lines : List Line) :
    total c (codeLines lines) = rawCount c lines := by
  have htexts : (codeLines lines).map (fun l => l.text.count c) = lines.map (·.count c) := by
    conv_rhs => rw [← texts_codeLines lines, List.map_map]
    rfl
  rw [total, htexts, rawCount]

theorem rawCount_append (c : Char) (front back : List Line) :
    rawCount c (front ++ back) = rawCount c front + rawCount c back := by
  rw [rawCount, List.map_append, Count.total_append]
  rfl

theorem balanceIssue?_codeLines (opening closing : Char) (lines : List Line) :
    (balanceIssue? opening closing (codeLines lines)).toList =
      imbalance opening closing (rawCount opening lines) (rawCount closing lines) := by
  rw [balanceIssue?, total_codeLines, total_codeLines, imbalance]
  split <;> rfl

theorem merge_joined {n : Nat} {front back : List CodeLine} {f : CodeLine → List NamedLocation}
    (h : ∀ l, f (l.moved n) = (f l).map (·.moved n)) :
    merge ((front ++ back.map (·.moved n)).flatMap f) =
      lastDeclarations (merge (front.flatMap f) ++ (merge (back.flatMap f)).map (·.moved n)) := by
  rw [flatMap_joined h, merge_eq, merge_eq, merge_eq, ← lastDeclarations_map_moved,
    lastDeclarations_append]

theorem joined_analyzeLines {front : List Line} (h : blockBehind .slashes false front = false)
    (back : List Line) :
    (analyzeLines (front ++ back)).Joined front back (analyzeLines front) (analyzeLines back) := by
  have hlines := codeLines_append h back
  have hwhere : ∀ rule : CodeLine → Bool, (∀ l, rule (l.moved front.length) = rule l) →
      linesWhere rule (codeLines (front ++ back)) =
        linesWhere rule (codeLines front) ++
          (linesWhere rule (codeLines back)).map (· + front.length) := by
    intro rule hrule
    rw [hlines, linesWhere_joined hrule]
  have hcount : ∀ f : CodeLine → List String, (∀ l, f (l.moved front.length) = f l) →
      ∀ name, ((codeLines (front ++ back)).flatMap f).count name =
        ((codeLines front).flatMap f).count name + ((codeLines back).flatMap f).count name := by
    intro f hf name
    rw [hlines, count_joined hf]
  constructor
  case todoComments =>
    exact (congrArg _ hlines).trans (filterMap_joined (CodeLine.todo?_moved _))
  case magicNumbers =>
    exact (congrArg _ hlines).trans (flatMap_joined (CodeLine.magicNumbers_moved _))
  case arrowFunctions =>
    exact (congrArg _ hlines).trans
      (filterMap_joined (fun l => l.firstName?_moved _ arrowPattern))
  case anonymousFunctions =>
    exact (congrArg _ hlines).trans
      (filterMap_joined (fun l => l.firstName?_moved _ anonymousPattern))
  case declaredFunctions =>
    exact (congrArg (fun ls => merge (ls.flatMap CodeLine.functions)) hlines).trans
      (merge_joined (CodeLine.functions_moved _))
  case declaredVariables =>
    exact (congrArg (fun ls => merge (ls.flatMap CodeLine.variablesIn)) hlines).trans
      (merge_joined (fun l => l.locate_moved _ (l.names variablePattern)))
  case unusedFunctions =>
    refine List.filter_congr (fun f _ => ?_)
    rw [hcount CodeLine.calls (fun _ => rfl),
      hcount (CodeLine.names functionPattern) (fun _ => rfl)]
    rfl
  case unusedVariables =>
    refine List.filter_congr (fun v _ => ?_)
    rw [hcount CodeLine.identifiers (fun _ => rfl),
      hcount (CodeLine.names variablePattern) (fun _ => rfl)]
    rfl
  case syntaxErrors =>
    show (balanceIssue? '{' '}' _).toList ++ (balanceIssue? '(' ')' _).toList = _
    rw [balanceIssue?_codeLines, balanceIssue?_codeLines]
    simp only [rawCount_append]
  case lintProblems => rfl
  -- The other findings are the numbers of the lines that a rule holds of.
  all_goals exact hwhere _ (fun _ => rfl)

/-- **The JavaScript pass is compositional.**  For two lists of lines, neither empty and none with a
line break in it, the findings of the source that has the first lines and then the others are put
together from the findings of the two sources, if no block comment is open behind the first. -/
theorem analyze_joined (front back : List Line) (hfront : front ≠ []) (hback : back ≠ [])
    (hplain : ∀ line ∈ front ++ back, IsPlain line)
    (hclosed : blockBehind .slashes false front = false) :
    (analyze (sourceOf (front ++ back))).Joined front back (analyze (sourceOf front))
      (analyze (sourceOf back)) := by
  obtain ⟨hplainFront, hplainBack⟩ := List.forall_mem_append.1 hplain
  have hboth : front ++ back ≠ [] := List.append_ne_nil_of_left_ne_nil hfront back
  rw [analyze, analyze, analyze, linesOf_sourceOf hfront hplainFront,
    linesOf_sourceOf hback hplainBack, linesOf_sourceOf hboth hplain]
  exact joined_analyzeLines hclosed back

/-- A function that is declared, and opened, in lines that others follow. -/
def openedLines : List Line := ["function f() \x7b", "let x = 22, g"].map String.toList

/-- The function is closed, declared again and called. -/
def closingLines : List Line :=
  ["\x7d // TODO", "function f() \x7b eval(x); \x7d", "f(7);"].map String.toList

/-- The function keeps its place and takes the later line, its brackets balance, and the call in the
second part makes it used. -/
theorem openedLines_joined_closingLines :
    (analyze (sourceOf openedLines)).unusedFunctions = [⟨"f", 1⟩] ∧
    (analyze (sourceOf (openedLines ++ closingLines))).declaredFunctions = [⟨"f", 4⟩] ∧
    (analyze (sourceOf (openedLines ++ closingLines))).unusedFunctions = [] ∧
    (analyze (sourceOf (openedLines ++ closingLines))).syntaxErrors = [] ∧
    (analyze (sourceOf (openedLines ++ closingLines))).magicNumbers = [⟨"22", 2⟩, ⟨"7", 5⟩] ∧
    (analyze (sourceOf (openedLines ++ closingLines))).evalUsage = [4] := by
  have hjoined := analyze_joined openedLines closingLines (by decide) (by decide) (by decide)
    (by decide)
  have hfunctions := hjoined.declaredFunctions.trans
    (by decide : _ = [(⟨"f", 4⟩ : NamedLocation)])
  refine ⟨by decide, hfunctions, ?_, hjoined.syntaxErrors.trans (by decide),
    hjoined.magicNumbers.trans (by decide), hjoined.evalUsage.trans (by decide)⟩
  rw [hjoined.unusedFunctions, hfunctions]
  decide

end JavaScript

end CodeSurvey
