/-
The findings of a JavaScript source.

Each line is masked and matched against a fixed set of patterns, one finding at a time.  What a
name is used for is decided by counting: a function is unused when every call token of its name is
part of its own declaration, a variable when every occurrence of its name declares it.
-/
import CodeSurvey.Masking
import CodeSurvey.Pattern.Search
import CodeSurvey.Findings.JavaScript

namespace CodeSurvey.JavaScript

open Text Pattern

/-! ## Patterns -/

/-- One of the words that declare a variable. -/
def declarator : Pattern := oneOf ["const", "let", "var"]

def generatorStar : Pattern := blanks ++ optional (char '*') ++ blanks

/-- A function declared by name; group 1 is the name. -/
def functionPattern : Pattern :=
  wordEdge ++ literal "function" ++ wordEdge ++ generatorStar ++ group 1 identifier ++ blanks ++
    char '('

/-- The parameters of an arrow function: a list in parentheses, or one name. -/
def arrowParameters : Pattern :=
  either (char '(' ++ many (· != ')') ++ char ')') identifier

/-- An arrow function bound to a name; group 1 is the name. -/
def arrowPattern : Pattern :=
  wordEdge ++ declarator ++ blanks1 ++ group 1 identifier ++ blanks ++ char '=' ++ blanks ++
    optional (literal "async" ++ blanks) ++ arrowParameters ++ blanks ++ literal "=>"

/-- A nameless function bound to a name; group 1 is the name. -/
def anonymousPattern : Pattern :=
  wordEdge ++ declarator ++ blanks1 ++ group 1 identifier ++ blanks ++ char '=' ++ blanks ++
    optional (literal "async" ++ blanks1) ++ literal "function" ++ wordEdge ++ generatorStar ++
    char '('

/-- A declared variable; group 1 is the name. -/
def variablePattern : Pattern :=
  wordEdge ++ oneOf ["let", "const", "var"] ++ blanks1 ++ group 1 identifier

def wordPattern (word : String) : Pattern := wordEdge ++ literal word ++ wordEdge

def callOf (name : String) : Pattern := wordEdge ++ literal name ++ blanks ++ char '('

/-- A line comment with a reminder in it, in either case. -/
def todoPattern : Pattern :=
  literal "//" ++ many notNewline ++ wordEdge ++
    either (literalAnyCase "todo") (literalAnyCase "fixme") ++ wordEdge

/-- The characters that cannot stand right before a number literal. -/
def isNumberNeighbour (c : Char) : Bool := isWordChar c || c == '.' || c == '$'

/-- Digits, perhaps with a sign and a fraction. -/
def numberLiteral : Pattern :=
  optional (char '-') ++ some1 isDecimalDigit ++ optional (char '.' ++ some1 isDecimalDigit)

/-- A number that begins the line or follows a character that is no part of one; group 1 is the
number. -/
def numberPattern : Pattern :=
  either textStart (one (!isNumberNeighbour ·)) ++ group 1 numberLiteral

/-- A call token; group 1 is the name. -/
def callPattern : Pattern := wordEdge ++ group 1 identifier ++ blanks ++ char '('

/-- A whole identifier. -/
def namePattern : Pattern := wordEdge ++ identifier ++ wordEdge

/-- A run of the characters that comparisons are made of. -/
def operatorPattern : Pattern :=
  some1 (fun c => c == '=' || c == '!' || c == '<' || c == '>')

/-! ## Lines -/

/-- A line with its number and its masked form. -/
structure CodeLine where
  number : Nat
  text : Line
  code : Line
deriving DecidableEq, Repr

/-- Put lines together with their masked forms, counting from a number. -/
def pairLines (number : Nat) : List Line → List Line → List CodeLine
  | text :: texts, code :: codes => ⟨number, text, code⟩ :: pairLines (number + 1) texts codes
  | _, _ => []

/-- The masked lines of a source. -/
def codeLines (lines : List Line) : List CodeLine :=
  pairLines 1 lines (maskLines .slashes lines)

namespace CodeLine

def names (pattern : Pattern) (l : CodeLine) : List String :=
  (pattern.findAll l.code).map (fun m => String.ofList (m.groupText 1))

def firstName? (pattern : Pattern) (l : CodeLine) : Option NamedLocation :=
  (pattern.find? l.code).map (fun m => ⟨String.ofList (m.groupText 1), l.number⟩)

def locate (l : CodeLine) (names : List String) : List NamedLocation :=
  names.map (⟨·, l.number⟩)

def arrow? (l : CodeLine) : Option NamedLocation := l.firstName? arrowPattern

/-- The nameless function of a line. -/
def anonymous? (l : CodeLine) : Option NamedLocation := l.firstName? anonymousPattern

def functions (l : CodeLine) : List NamedLocation :=
  l.locate (l.names functionPattern) ++ l.arrow?.toList ++ l.anonymous?.toList

def variablesIn (l : CodeLine) : List NamedLocation := l.locate (l.names variablePattern)

def calls (l : CodeLine) : List String := l.names callPattern

def identifiers (l : CodeLine) : List String :=
  (namePattern.findAll l.code).map (fun m => String.ofList m.text)

def magicNumbers (l : CodeLine) : List NumberLiteral :=
  ((l.names numberPattern).filter (fun value => value != "0" && value != "1")).map
    (⟨·, l.number⟩)

/-- The reminder of a line; it is looked for in the line as it stands. -/
def todo? (l : CodeLine) : Option TodoComment :=
  if todoPattern.occurs l.text then some ⟨String.ofList (trim l.text), l.number⟩ else none

def operators (l : CodeLine) : List String :=
  (operatorPattern.findAll l.code).map (fun m => String.ofList m.text)

/-- Whether a line compares with conversion. -/
def hasLooseEquality (l : CodeLine) : Bool :=
  l.operators.any (fun op => op == "==" || op == "!=")

/-- Whether a line compares strictly. -/
def hasStrictEquality (l : CodeLine) : Bool :=
  l.operators.any (fun op => op == "===" || op == "!==")

/-- The characters that end a statement which lacks its semicolon. -/
def endsStatement (c : Char) : Bool :=
  isWordChar c || c == ')' || c == ']' || c == '\'' || c == '"' || c == '\x60'

/-- Whether the code of a line ends like a statement, but without a semicolon. -/
def lacksSemicolon (l : CodeLine) : Bool :=
  !(['/', '/'].isPrefixOf (trim l.text)) && (trim l.code).getLast?.any endsStatement

/-- Lines with more characters than this are too long. -/
def maxLength : Nat := 120

def isLong (l : CodeLine) : Bool := maxLength < l.text.length

end CodeLine

/-! ## All findings -/

/-- Note a declaration: a name declared again keeps its place and takes the later line. -/
def noteDeclaration (entries : List NamedLocation) (d : NamedLocation) : List NamedLocation :=
  if entries.any (·.name == d.name) then
    entries.map (fun e => if e.name == d.name then { e with line := d.line } else e)
  else entries ++ [d]

def merge (declarations : List NamedLocation) : List NamedLocation :=
  declarations.foldl noteDeclaration []

def linesWhere (rule : CodeLine → Bool) (ls : List CodeLine) : List Nat :=
  (ls.filter rule).map (·.number)

def linesMatching (pattern : Pattern) (ls : List CodeLine) : List Nat :=
  linesWhere (fun l => pattern.occurs l.code) ls

/-- How often a character occurs in the raw lines. -/
def total (c : Char) (ls : List CodeLine) : Nat :=
  Count.total (ls.map (fun l => l.text.count c))

/-- The remark on two brackets of a kind that do not occur equally often. -/
def balanceIssue? (opening closing : Char) (ls : List CodeLine) : Option String :=
  let opened := total opening ls
  let closed := total closing ls
  if opened = closed then none
  else some ("Count of '" ++ String.singleton opening ++ "' (" ++ toString opened ++
    ") differs from '" ++ String.singleton closing ++ "' (" ++ toString closed ++ ").")

/-- The declared functions of which no call is left besides their own declarations. -/
def unusedFunctions (ls : List CodeLine) (declared : List NamedLocation) : List NamedLocation :=
  let calls := ls.flatMap CodeLine.calls
  let own := ls.flatMap (CodeLine.names functionPattern)
  declared.filter (fun f => calls.count f.name ≤ own.count f.name)

/-- The declared variables of which no occurrence is left besides their declarations. -/
def unusedVariables (ls : List CodeLine) (declared : List NamedLocation) : List NamedLocation :=
  let seen := ls.flatMap CodeLine.identifiers
  let own := ls.flatMap (CodeLine.names variablePattern)
  declared.filter (fun v => seen.count v.name ≤ own.count v.name)

def findingsOf (ls : List CodeLine) : JavaScriptFindings :=
  let functions := merge (ls.flatMap CodeLine.functions)
  let declared := merge (ls.flatMap CodeLine.variablesIn)
  { declaredFunctions := functions
    unusedFunctions := unusedFunctions ls functions
    declaredVariables := declared
    unusedVariables := unusedVariables ls declared
    syntaxErrors := (balanceIssue? '{' '}' ls).toList ++ (balanceIssue? '(' ')' ls).toList
    varUsage := linesMatching (wordPattern "var") ls
    letUsage := linesMatching (wordPattern "let") ls
    constUsage := linesMatching (wordPattern "const") ls
    evalUsage := linesMatching (callOf "eval") ls
    documentWriteUsage := linesMatching (callOf "document.write") ls
    todoComments := ls.filterMap CodeLine.todo?
    longLines := linesWhere CodeLine.isLong ls
    magicNumbers := ls.flatMap CodeLine.magicNumbers
    semicolonMissing := linesWhere CodeLine.lacksSemicolon ls
    arrowFunctions := ls.filterMap CodeLine.arrow?
    anonymousFunctions := ls.filterMap CodeLine.anonymous?
    doubleEquals := linesWhere CodeLine.hasLooseEquality ls
    tripleEquals := linesWhere CodeLine.hasStrictEquality ls
    consoleLogUsage := linesMatching (callOf "console.log") ls
    lintProblems := none }

/-- The findings of a JavaScript source given as lines. -/
def analyzeLines (lines : List Line) : JavaScriptFindings :=
  findingsOf (codeLines lines)

def analyze (source : String) : JavaScriptFindings :=
  analyzeLines (linesOf source)

end CodeSurvey.JavaScript
