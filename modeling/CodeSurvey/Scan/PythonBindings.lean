/-
Names that a Python line binds.

Targets of assignments, loops, `as` clauses and lambdas on a masked line; the parameters of a `def`
header; the names an import brings in.  Keywords and predefined names are told from others.

All of it is read off one line by patterns, without a grammar.  What keeps a keyword argument or a
comparison from being taken for an assignment is the bracket depth, which is counted over the line
and carried from the lines above, and a look at the characters around the equals sign.
-/
import CodeSurvey.Pattern.Search
import CodeSurvey.Text.Lines

namespace CodeSurvey.Python

open Text Pattern

/-! ## Keywords and predefined names -/

/-- Reserved words: never a name, a target or a called function. -/
def keywords : List String :=
  ["False", "None", "True", "and", "as", "assert", "async", "await", "break",
    "class", "continue", "def", "del", "elif", "else", "except", "finally",
    "for", "from", "global", "if", "import", "in", "is", "lambda", "nonlocal",
    "not", "or", "pass", "raise", "return", "try", "while", "with", "yield"]

/-- Predefined names: reading one needs no assignment. -/
def builtins : List String :=
  ["abs", "all", "any", "ascii", "bin", "bool", "bytearray", "bytes", "callable",
    "chr", "classmethod", "compile", "complex", "dict", "dir", "divmod",
    "enumerate", "eval", "exec", "filter", "float", "format", "frozenset",
    "getattr", "globals", "hasattr", "hash", "help", "hex", "id", "input", "int",
    "isinstance", "issubclass", "iter", "len", "list", "locals", "map", "max",
    "memoryview", "min", "next", "object", "oct", "open", "ord", "pow", "print",
    "property", "range", "repr", "reversed", "round", "set", "setattr", "slice",
    "sorted", "staticmethod", "str", "sum", "super", "tuple", "type", "vars",
    "zip", "__name__", "__file__", "__doc__", "__class__",
    "Exception", "BaseException", "ArithmeticError", "AssertionError",
    "AttributeError", "FileNotFoundError", "ImportError", "IndexError",
    "KeyError", "KeyboardInterrupt", "NotImplemented", "NotImplementedError",
    "OSError", "IOError", "PermissionError", "RuntimeError", "StopIteration",
    "TypeError", "ValueError", "ZeroDivisionError", "Ellipsis"]

/-- Whether a word is reserved. -/
def isKeyword (word : String) : Bool := keywords.contains word

/-- Whether a name is predefined. -/
def isBuiltin (name : String) : Bool := builtins.contains name

/-- Names with two underscores on both sides are called by the language itself. -/
def isDunder (name : String) : Bool :=
  let cs := name.toList
  4 < cs.length && ['_', '_'].isPrefixOf cs && ['_', '_'].isPrefixOf cs.reverse

/-- A leading underscore says that a name is not meant to be used. -/
def isThrowaway (name : String) : Bool :=
  name.toList.head? == some '_'

/-! ## Patterns -/

/-- A whole identifier: nothing of the word is left on either side. -/
def namePattern : Pattern := wordEdge ++ identifier ++ wordEdge

/-- A text that is one identifier and nothing else. -/
def wholeName : Pattern := textStart ++ identifier ++ textEnd

/-- The characters that may stand before the equals sign of an update. -/
def isUpdateOperator (c : Char) : Bool :=
  ['-', '+', '*', '/', '%', '&', '|', '^', '@'].contains c

/-- `name =`, `name +=`, `name //=` and the like; group 1 is the target. -/
def assignmentPattern : Pattern :=
  wordEdge ++ group 1 identifier ++ blanks ++
    optional (either (oneOf ["//", "**", ">>", "<<"]) (one isUpdateOperator)) ++ char '='

/-- `name: annotation =` at the start of a line. -/
def annotatedPattern : Pattern :=
  textStart ++ blanks ++ group 1 identifier ++ blanks ++ char ':' ++ many (· != '=') ++ char '='

/-- `a, b =` at the start of a line; group 1 holds the targets. -/
def tuplePattern : Pattern :=
  textStart ++ blanks ++
    group 1 (identifier ++ rounds1 (blanks ++ char ',' ++ blanks ++ identifier)) ++
    blanks ++ char '='

/-- The characters between `for` and `in`. -/
def isTargetChar (c : Char) : Bool :=
  isWordChar c || isBlank c || c == ',' || c == '(' || c == ')'

/-- `for targets in`, with as few characters as possible in between. -/
def forPattern : Pattern :=
  wordEdge ++ literal "for" ++ blanks1 ++ group 1 (one isNameStart ++ few isTargetChar) ++
    blanks1 ++ literal "in" ++ wordEdge

/-- `as name`. -/
def asPattern : Pattern :=
  wordEdge ++ literal "as" ++ blanks1 ++ group 1 identifier ++ wordEdge

/-- `lambda parameters:`. -/
def lambdaPattern : Pattern :=
  wordEdge ++ literal "lambda" ++ wordEdge ++ group 1 (many (· != ':')) ++ char ':'

/-- `from module import names`. -/
def fromImportPattern : Pattern :=
  textStart ++ literal "from" ++ blanks1 ++ group 1 (some1 (fun c => isWordChar c || c == '.')) ++
    blanks1 ++ literal "import" ++ blanks1 ++ group 2 (some1 notNewline)

/-- The `as` between a module and its alias. -/
def aliasPattern : Pattern := blanks1 ++ literal "as" ++ blanks1

/-! ## Targets -/

/-- How a target is written to. -/
inductive AssignKind where
  /-- A write that needs no earlier value. -/
  | plain
  /-- A read and a write, such as `x += 1`. -/
  | compound
  /-- A keyword argument within brackets: no write at all. -/
  | keyword
deriving DecidableEq, Repr

/-- A target on a masked line, with the offset of its first character. -/
structure Assignment where
  name : String
  start : Nat
  kind : AssignKind
deriving DecidableEq, Repr

/-- By how much one character changes the bracket depth. -/
def bracketStep (c : Char) : Int :=
  if c == '(' || c == '[' || c == '{' then 1
  else if c == ')' || c == ']' || c == '}' then -1
  else 0

/-- Opening brackets less closing ones, counted without bound.  A signed count in 32 bits agrees with
this one unless a line has `2 ^ 31` brackets or more. -/
def bracketDelta (code : List Char) : Int :=
  code.foldl (fun depth c => depth + bracketStep c) 0

/-- The depth behind a line; a bracket too many closes nothing.  Like the count of a line it has no
bound, so it agrees with a signed depth in 32 bits unless `2 ^ 31` brackets or more are open. -/
def depthAfter (depth : Nat) (code : List Char) : Nat :=
  (depth + bracketDelta code).toNat

/-- Note a target, unless it is a keyword or its place is taken. -/
def addTarget (found : List Assignment) (name : List Char) (start : Nat) (kind : AssignKind) :
    List Assignment :=
  if isKeyword (String.ofList name) || found.any (fun a => a.start == start) then found
  else found ++ [⟨String.ofList name, start, kind⟩]

/-- Note every identifier of a span as a plain target. -/
def addNames (found : List Assignment) (span : Span) : List Assignment :=
  (namePattern.findAll span.text).foldl
    (fun found m => addTarget found m.text (span.start.offset + m.start) .plain) found

def isComparison (m : Match) : Bool := m.rest.head? == some '='

/-- The annotated target of a line, with the offset behind its equals sign. -/
def annotatedTarget? (code : List Char) : Option (Span × Nat) :=
  match annotatedPattern.find? code with
  | none => none
  | some m =>
    match m.group? 1 with
    | none => none
    | some target =>
      if isComparison m || isKeyword (String.ofList target.text) then none
      else some (target, m.stop)

def tupleTargets? (code : List Char) : Option Span :=
  match tuplePattern.find? code with
  | none => none
  | some m => if isComparison m then none else m.group? 1

/-- Note the targets that only a line outside brackets can have; the second result is the offset
before which no further assignment is looked for. -/
def addLineTargets (code : List Char) (depth : Nat) : List Assignment × Nat :=
  if depth = 0 then
    let (found, scanFrom) :=
      match annotatedTarget? code with
      | some (target, stop) => (addTarget [] target.text target.start.offset .plain, stop)
      | none => ([], 0)
    match tupleTargets? code with
    | some targets => (addNames found targets, scanFrom)
    | none => (found, scanFrom)
  else ([], 0)

/-- How the target of an assignment match is written to. -/
def assignKind (code : List Char) (depth : Nat) (m : Match) (target : Span) : AssignKind :=
  let operator := trim (m.text.drop target.text.length)
  if 0 < depth + bracketDelta (code.take target.start.offset) then .keyword
  else if operator == ['='] then .plain
  else .compound

/-- Note the target of one assignment match: not a comparison and not an attribute. -/
def addAssignment (code : List Char) (depth scanFrom : Nat) (found : List Assignment)
    (m : Match) : List Assignment :=
  match m.group? 1 with
  | none => found
  | some target =>
    if target.start.offset < scanFrom || isComparison m || target.start.before == some '.' then
      found
    else addTarget found target.text target.start.offset (assignKind code depth m target)

def addGroupNames (found : List Assignment) (m : Match) : List Assignment :=
  match m.group? 1 with
  | none => found
  | some span => addNames found span

def addGroupName (found : List Assignment) (m : Match) : List Assignment :=
  match m.group? 1 with
  | none => found
  | some span => addTarget found span.text span.start.offset .plain

/-- Whether a place in a parameter list lies in a default: its last equals sign comes after its
last comma. -/
def inDefault (textBefore : List Char) : Bool :=
  match (textBefore.reverse).find? (fun c => c == '=' || c == ',') with
  | some c => c == '='
  | none => false

def addParameter (span : Span) (found : List Assignment) (m : Match) : List Assignment :=
  if inDefault (span.text.take m.start) then found
  else addTarget found m.text (span.start.offset + m.start) .plain

def addLambda (found : List Assignment) (m : Match) : List Assignment :=
  match m.group? 1 with
  | none => found
  | some span => (namePattern.findAll span.text).foldl (addParameter span) found

/-- All targets of a masked line.  `depth` is the bracket depth before the line, so that keyword
arguments on continued lines are not taken for assignments. -/
def assignments (code : List Char) (depth : Nat) : List Assignment :=
  let (found, scanFrom) := addLineTargets code depth
  let found := (assignmentPattern.findAll code).foldl (addAssignment code depth scanFrom) found
  let found := (forPattern.findAll code).foldl addGroupNames found
  let found := (asPattern.findAll code).foldl addGroupName found
  (lambdaPattern.findAll code).foldl addLambda found

/-! ## Parameters and imports -/

def parameterName? (segment : List Char) : Option String :=
  let bare := trimStartOf (· == '*') (trim segment)
  let name := trim (before (fun c => c == '=' || c == ':') bare)
  let text := String.ofList name
  if wholeName.occurs name && text != "self" && text != "cls" && !isKeyword text then some text
  else none

/-- The parameters of a `def` header, without `self` and `cls`. -/
def parameters (params : List Char) : List String :=
  (splitAt ',' params).filterMap parameterName?

/-- The name an import segment binds: its alias, or else the root of a dotted module. -/
def importedName? (segment : List Char) : Option String :=
  let name :=
    match aliasPattern.split (trim segment) with
    | _ :: shown :: _ => trim shown
    | [bound] => before (· == '.') (trim bound)
    | [] => []
  if wholeName.occurs name then some (String.ofList name) else none

/-- The segments of an import line, or nothing for any other line.  Imports of future features
bind no name. -/
def importSegments? (trimmed : List Char) : Option (List (List Char)) :=
  let code := before (· == '#') trimmed
  match stripPrefix? "import ".toList code with
  | some rest => some (splitAt ',' rest)
  | none =>
    match fromImportPattern.find? code with
    | none => none
    | some m =>
      if m.groupText 1 == "__future__".toList then some []
      else
        let names := trimStartOf (· == '(') (trim (m.groupText 2))
        some (splitAt ',' (trimEndOf (fun c => c == '\\' || c == ')') names))

/-- The names an import line binds, or nothing for any other line. -/
def importedNames? (trimmed : List Char) : Option (List String) :=
  (importSegments? trimmed).map (·.filterMap importedName?)

end CodeSurvey.Python
