/-
The findings of a Python source.

Each finding is read off the outline on its own.  Names are declared, read and called by the code
lines and the headers; a function adds its complexity, its docstring, its unreachable code and the
names it reads without having written them.
-/
import CodeSurvey.Scan.PythonOutline
import CodeSurvey.Findings.Python
import CodeSurvey.NameSet
import CodeSurvey.Digest.Md5

namespace CodeSurvey.Python

open Text Pattern

/-! ## Style -/

/-- Lines with more characters than this are too long. -/
def maxLineLength : Nat := 100

def styleIssues (number : Nat) (line : Line) : List LineIssue :=
  let trailing := line.getLast?.any (fun c => c == ' ' || c == '\t')
  (if trailing then [⟨number, "trailing whitespace."⟩] else []) ++
    (if line.contains '\t' then [⟨number, "tab character found (prefer spaces)."⟩] else []) ++
    (if maxLineLength < line.length then
      [⟨number, "line longer than " ++ toString maxLineLength ++ " characters."⟩] else [])

/-! ## Views of an outline -/

def Step.items : Step → List Item
  | .line item => [item]
  | .function f => f.body

def Step.function? : Step → Option Function
  | .line _ => none
  | .function f => some f

def Item.scan? (item : Item) : Option LineScan :=
  match item.role with
  | .code _ scan => some scan
  | _ => none

/-- The text of a line as it is shown: without the blanks around it. -/
def Item.code (item : Item) : String := String.ofList (trim item.text)

def Item.declaredFunctions (item : Item) : List String :=
  match item.role with
  | .definition name _ => [name]
  | _ => []

def Step.declaredFunctions : Step → List String
  | .line item => item.declaredFunctions
  | .function f => f.name :: f.body.flatMap Item.declaredFunctions

/-- The variables an item declares: the parameters of a nested header, the targets of code. -/
def Item.declaredVars (item : Item) : List String :=
  match item.role with
  | .definition _ parameters => parameters
  | .code _ scan => scan.writes
  | _ => []

def Step.declaredVars : Step → List String
  | .line item => item.declaredVars
  | .function f => f.parameters ++ f.body.flatMap Item.declaredVars

/-- The names an item binds other than by writing: imports, nested functions, classes. -/
def Item.boundNames (item : Item) : List String :=
  match item.role with
  | .imports names => names
  | .definition name _ => [name]
  | .code className _ => className.toList
  | _ => []

def Step.boundNames : Step → List String
  | .line item => item.boundNames
  | .function f => f.name :: f.body.flatMap Item.boundNames

def Item.mentions (item : Item) : List String :=
  (item.scan?.map LineScan.mentions).getD []

def Item.reads (item : Item) : List String :=
  (item.scan?.map LineScan.reads).getD []

def Item.calledFunctions (item : Item) : List String :=
  ((item.scan?.map LineScan.callTokens).getD []).filter (!isKeyword ·)

/-! ## Prints, fixed indexes, imports -/

/-- A trimmed line that prints. -/
def printPattern : Pattern := textStart ++ literal "print" ++ blanks ++ char '('

def Item.printStatement? (item : Item) : Option PrintStatement :=
  if item.scan?.isSome && printPattern.occurs (trim item.text) then some ⟨item.number, item.code⟩
  else none

def Item.indexIssue? (item : Item) : Option LineIssue :=
  if item.scan?.any LineScan.hasFixedIndex then
    some ⟨item.number, "Possible IndexError (hard-coded index)."⟩
  else none

/-- Note an import: a name imported again keeps its place and takes the later line. -/
def noteImport (imports : List ImportedName) (name : String) (line : Nat) : List ImportedName :=
  if imports.any (·.name == name) then
    imports.map (fun i => if i.name == name then { i with line := line } else i)
  else imports ++ [⟨name, line⟩]

def noteImports (imports : List ImportedName) (item : Item) : List ImportedName :=
  match item.role with
  | .imports names => names.foldl (fun acc name => noteImport acc name item.number) imports
  | _ => imports

/-! ## Docstrings -/

/-- The letters that may stand before a string. -/
def isStringPrefix (c : Char) : Bool :=
  ['r', 'R', 'u', 'U', 'b', 'B', 'f', 'F'].contains c

/-- Drop up to two prefix letters before a quote. -/
def dropStringPrefix (content : List Char) : List Char :=
  let stripped := content.dropWhile isStringPrefix
  if content.length ≤ stripped.length + 2 && stripped.head?.any (fun c => c == '"' || c == '\'')
  then stripped else content

def leadingQuote? (content : List Char) : Option TripleQuote :=
  [TripleQuote.double, TripleQuote.single].find? (fun quote => quote.text.isPrefixOf content)

/-- The remark on a header whose block begins without a docstring, or with one that is never
closed.  A block without content is blamed on the header. -/
def docstringIssue? (kind name : String) (number : Nat) (block : List Line) : Option LineIssue :=
  let subject := kind ++ " '" ++ name ++ "' has "
  match firstContent? block with
  | none => some ⟨number, subject ++ "no docstring."⟩
  | some (above, line) =>
    let here := number + 1 + above
    let content := dropStringPrefix (trim line)
    match leadingQuote? content with
    | none => some ⟨here, subject ++ "no docstring."⟩
    | some quote =>
      if 2 ≤ occurrences quote.text content ||
          (block.drop (above + 1)).any (occursIn quote.text) then none
      else some ⟨here, subject ++ "an unterminated docstring."⟩

def Function.block (f : Function) : List Line := f.body.map (·.text)

def Step.docstringIssue? : Step → Option LineIssue
  | .function f => Python.docstringIssue? "Function" f.name f.number f.block
  | .line item =>
    match item.role with
    | .code (some name) _ =>
      Python.docstringIssue? "Class" name item.number (blockUnder item.text item.below)
    | _ => none

/-! ## Equal bodies and known code -/

/-- Lines without their outer blanks, joined, without the blank lines at both ends. -/
def normalized (lines : List Line) : List Char :=
  trim ((lines.map trim).intersperse ['\n']).flatten

/-- Definitions known from elsewhere, by the digest of their normalized lines. -/
def knownDefinitions : List (String × String) :=
  [("86fb269d190d2c85f6e0468ceca42a20", "Sample 'hello_world' function"),
    ("5dad2f67a423e441ec835bb67340b70c", "Tutorial 'hello_world' function")]

/-- The digest of a text, taken of its UTF-8 form. -/
def digestOf (text : List Char) : String :=
  String.ofList (Digest.md5 (String.ofList text).toUTF8.toList)

def Function.knownIssue? (f : Function) : Option LineIssue :=
  let digest := digestOf (normalized (f.header :: f.block))
  (knownDefinitions.lookup digest).map (fun description => ⟨f.number, description⟩)

/-- Put a function into the group with the digest of its body; an empty body is in no group. -/
def addToGroup (groups : List (String × List String)) (f : Function) :
    List (String × List String) :=
  let body := normalized f.block
  let digest := digestOf body
  if body.isEmpty then groups
  else if groups.any (·.1 == digest) then
    groups.map (fun g => if g.1 == digest then (g.1, g.2 ++ [f.name]) else g)
  else groups ++ [(digest, [f.name])]

/-- Groups of at least two functions whose bodies have one digest, by their first member. -/
def duplicateGroups (functions : List Function) : List (List String) :=
  ((functions.foldl addToGroup []).map (·.2)).filter (fun names => 1 < names.length)

/-! ## Unreachable code -/

/-- A trimmed line that begins with `return`. -/
def returnPattern : Pattern := textStart ++ literal "return" ++ wordEdge

/-- A trimmed line that tests the constant `False`. -/
def ifFalsePattern : Pattern :=
  textStart ++ literal "if" ++ blanks1 ++ literal "False" ++ wordEdge

/-- The indent of a function's body: that of its first line with content. -/
def Function.bodyIndent? (f : Function) : Option Nat :=
  (firstContent? f.block).map (fun found => indentWidth found.2)

/-- Whether a line of a body is neither in a string nor blank nor a comment. -/
def Item.isActive (item : Item) : Bool :=
  item.role != .quoted && item.role != .idle

/-- The remark on a body line behind a return, and the indent of the return that the next line is
still behind. -/
def unreachable (bodyIndent returnIndent : Option Nat) (item : Item) :
    List LineIssue × Option Nat :=
  let indent := indentWidth item.text
  if returnPattern.occurs (trim item.text) && bodyIndent == some indent then ([], some indent)
  else
    match returnIndent with
    | none => ([], none)
    | some limit =>
      if indent ≤ limit then
        ([⟨item.number, "Code after 'return' is unreachable."⟩], none)
      else ([], some limit)

/-- The remark on a code line that tests a constant. -/
def Item.ifFalseIssue? (item : Item) : Option LineIssue :=
  if item.scan?.isSome && ifFalsePattern.occurs (trim item.text) then
    some ⟨item.number, "'if False' block found."⟩
  else none

def deadCodeFrom (bodyIndent returnIndent : Option Nat) : List Item → List LineIssue
  | [] => []
  | item :: rest =>
    if item.isActive then
      let (issues, returnIndent') := unreachable bodyIndent returnIndent item
      issues ++ item.ifFalseIssue?.toList ++ deadCodeFrom bodyIndent returnIndent' rest
    else deadCodeFrom bodyIndent returnIndent rest

def Function.deadCode (f : Function) : List LineIssue :=
  deadCodeFrom f.bodyIndent? none f.body

/-! ## Loops and calls -/

/-- A function with more loops than this is too complex. -/
def maxLoops : Nat := 2

/-- A function with more calls than this is too complex. -/
def maxCalls : Nat := 10

/-- A trimmed line that begins a loop. -/
def loopPattern : Pattern := textStart ++ oneOf ["for", "while"] ++ wordEdge

def Item.isLoop (item : Item) : Bool :=
  item.scan?.isSome && loopPattern.occurs (trim item.text)

/-- Whether the block under a loop header holds a call token. -/
def Item.loopHasCall (item : Item) : Bool :=
  (blockUnder item.text item.below).any (fun line => callPattern.occurs (maskLine .hash line))

/-- The remark on a loop that calls a function. -/
def Item.loopIssue? (item : Item) : Option LineIssue :=
  if item.isLoop && item.loopHasCall then some ⟨item.number, "Function call inside loop."⟩
  else none

/-- Loop headers and call tokens of a function. -/
def Function.complexity (f : Function) : Complexity :=
  { function := f.name
    line := f.number
    loops := f.body.countP Item.isLoop
    calls :=
      Count.total (f.body.map (fun item => (item.scan?.map (·.callTokens.length)).getD 0)) }

/-- The advice on a function that does too much. -/
def Complexity.advice? (c : Complexity) : Option LineIssue :=
  if maxLoops < c.loops || maxCalls < c.calls then
    some ⟨c.line, "Function '" ++ c.function ++ "' is too complex (" ++ toString c.loops ++
      " loops, " ++ toString c.calls ++ " calls). Consider refactoring."⟩
  else none

/-! ## Reads and writes of a function -/

/-- The names a function has written so far, and those it read before. -/
structure Usage where
  writes : NameSet
  openReads : NameSet

/-- Add what one item of the body writes and reads.  The reads of a line come before its
writes. -/
def Usage.add (usage : Usage) (item : Item) : Usage :=
  match item.role with
  | .definition name parameters =>
    { usage with writes := (usage.writes.insert name).insertAll parameters }
  | .code _ scan =>
    let fresh := scan.reads.filter (fun name => name ∉ usage.writes && !isBuiltin name)
    { writes := usage.writes.insertAll scan.writes
      openReads := usage.openReads.insertAll fresh }
  | _ => usage

/-- What a function writes, and what it reads before it has written it. -/
def Function.usage (f : Function) : Usage :=
  f.body.foldl Usage.add ⟨NameSet.ofList f.parameters, ∅⟩

/-- The writes of a function that nothing in the source reads. -/
def Function.unusedWrites? (used : NameSet) (f : Function) : Option UnusedWrites :=
  let unread :=
    f.usage.writes.toList.filter (fun name => name ∉ used && !isThrowaway name)
  if unread.isEmpty then none else some ⟨f.name, unread⟩

/-! ## All findings -/

/-- The findings that an outline shows; style is a matter of the lines alone. -/
def findingsOf (lines : List Line) (steps : List Step) : PythonFindings :=
  let items := steps.flatMap Step.items
  let functions := steps.filterMap Step.function?
  let declaredFunctions := NameSet.ofList (steps.flatMap Step.declaredFunctions)
  let calledFunctions := NameSet.ofList (items.flatMap Item.calledFunctions)
  let declaredVars := NameSet.ofList (steps.flatMap Step.declaredVars)
  let usedVars := NameSet.ofList (items.flatMap Item.reads)
  let mentions := NameSet.ofList (items.flatMap Item.mentions)
  let bound := NameSet.ofList (steps.flatMap Step.boundNames)
  let openReads := NameSet.ofList (functions.flatMap (·.usage.openReads.toList))
  let complexity := functions.map Function.complexity
  { declaredFunctions := declaredFunctions.toList
    calledFunctions := calledFunctions.toList
    unusedFunctions :=
      declaredFunctions.toList.filter (fun name => name ∉ calledFunctions && !isDunder name)
    declaredVars := declaredVars.toList
    usedVars := declaredVars.toList.filter (· ∈ usedVars)
    unusedVars :=
      declaredVars.toList.filter (fun name => name ∉ usedVars && !isThrowaway name)
    printStatements := items.filterMap Item.printStatement?
    uninitializedVars := openReads.toList.filter (fun name =>
      name ∉ declaredVars && name ∉ bound && !isBuiltin name && name != "self" && name != "cls")
    docstringIssues := steps.filterMap Step.docstringIssue?
    functionComplexity := complexity
    styleIssues := eachLine styleIssues 1 lines
    commonErrors := (items.filterMap Item.indexIssue?).eraseDups
    refactorSuggestions := complexity.filterMap Complexity.advice?
    unusedImports := (items.foldl noteImports []).filter (·.name ∉ mentions)
    deadCode := functions.flatMap Function.deadCode
    duplicateFunctions := duplicateGroups functions
    unusedWrites := functions.filterMap (Function.unusedWrites? usedVars)
    thirdPartyCode := functions.filterMap Function.knownIssue?
    performanceIssues := (functions.flatMap (·.body.filterMap Item.loopIssue?)).eraseDups }

def analyzeLines (lines : List Line) : PythonFindings :=
  findingsOf lines (outline lines)

def analyze (source : String) : PythonFindings :=
  analyzeLines (linesOf source)

end CodeSurvey.Python
