/-
The outline of a Python source: what each line is to the scan.

Every line gets one role.  A `def` header takes its block with it, as the body of a function;
all other lines stand alone at module level.  Masking, targets, reads and calls of a code line are
worked out here once; the findings are then read off the outline.
-/
import CodeSurvey.Scan.PythonBlocks
import CodeSurvey.Scan.PythonBindings

namespace CodeSurvey.Python

open Text Pattern

/-! ## Patterns -/

/-- The header of a function; group 1 is its name, group 2 its parameter list. -/
def definitionPattern : Pattern :=
  textStart ++ optional (literal "async" ++ blanks1) ++ literal "def" ++ blanks1 ++
    group 1 identifier ++ blanks ++ char '(' ++ group 2 (many notNewline) ++ char ')' ++ blanks ++
    optional (literal "->" ++ many (· != ':')) ++ char ':'

/-- The header of a class; group 1 is its name. -/
def classPattern : Pattern :=
  textStart ++ literal "class" ++ blanks1 ++ group 1 identifier

/-- A call token: a name before an opening parenthesis. -/
def callPattern : Pattern :=
  wordEdge ++ group 1 identifier ++ blanks ++ char '('

def fixedIndexPattern : Pattern :=
  one (fun c => isWordChar c || c == ')' || c == ']') ++ blanks ++ char '[' ++
    some1 Char.isDigit ++ char ']'

/-! ## Code lines -/

/-- What one code line contributes. -/
structure LineScan where
  /-- Every identifier, keywords and attributes included. -/
  mentions : List String
  reads : List String
  writes : List String
  /-- The name of every call token, keywords included. -/
  callTokens : List String
  hasFixedIndex : Bool
deriving DecidableEq, Repr

/-- Whether an identifier of a masked line is read there: it is no keyword, no attribute, and not
the place of a write or of a keyword argument. -/
def isRead (targets : List Assignment) (m : Match) : Bool :=
  !isKeyword (String.ofList m.text) &&
    !targets.any (fun a => a.kind != .compound && a.start == m.start) &&
    m.span.start.before != some '.'

def callTokens (code : List Char) : List String :=
  (callPattern.findAll code).map (fun m => String.ofList (m.groupText 1))

def scanCode (code : List Char) (depth : Nat) : LineScan :=
  let targets := assignments code depth
  let names := namePattern.findAll code
  { mentions := names.map (fun m => String.ofList m.text)
    reads := (names.filter (isRead targets)).map (fun m => String.ofList m.text)
    writes := (targets.filter (fun a => a.kind != .keyword)).map (·.name)
    callTokens := callTokens code
    hasFixedIndex := fixedIndexPattern.occurs code }

/-! ## Roles -/

/-- What a line is to the scan. -/
inductive Role where
  /-- Begins inside a triple quoted string. -/
  | quoted
  /-- A blank line or a comment in a function body. -/
  | idle
  | imports (names : List String)
  /-- A `def` header within a function body. -/
  | definition (name : String) (parameters : List String)
  /-- Code, which may be the header of a class. -/
  | code (className : Option String) (scan : LineScan)
deriving DecidableEq, Repr

/-- A line with its number, its role and the lines of the source below it. -/
structure Item where
  number : Nat
  text : Line
  role : Role
  below : List Line
deriving DecidableEq, Repr

/-- A function: its header and its block. -/
structure Function where
  number : Nat
  header : Line
  name : String
  parameters : List String
  below : List Line
  body : List Item
deriving DecidableEq, Repr

/-- One step of the scan through a source. -/
inductive Step where
  | line (item : Item)
  | function (f : Function)
deriving DecidableEq, Repr

/-- The function a trimmed line is the header of, by name and parameters. -/
def definition? (trimmed : List Char) : Option (String × List String) :=
  (definitionPattern.find? trimmed).map
    (fun m => (String.ofList (m.groupText 1), parameters (m.groupText 2)))

def className? (trimmed : List Char) : Option String :=
  (classPattern.find? trimmed).map (fun m => String.ofList (m.groupText 1))

def roleAt (depth : Nat) (text : Line) : Role :=
  let trimmed := trim text
  match importedNames? trimmed with
  | some names => .imports names
  | none =>
    match definition? trimmed with
    | some (name, parameters) => .definition name parameters
    | none => .code (className? trimmed) (scanCode (maskLine .hash text) depth)

def Role.depthAfter (role : Role) (depth : Nat) (text : Line) : Nat :=
  match role with
  | .code _ _ => Python.depthAfter depth (maskLine .hash text)
  | _ => depth

/-- The items of a function's block: the first `size` of the lines below its header.  The string
state and the depth start anew with the block. -/
def bodyItems (strings : StringState) (depth number : Nat) : Nat → List Line → List Item
  | 0, _ => []
  | _, [] => []
  | size + 1, text :: below =>
    let role :=
      if strings.inside then .quoted
      else if hasContent text then roleAt depth text
      else .idle
    ⟨number, text, role, below⟩ ::
      bodyItems (strings.next text) (role.depthAfter depth text) (number + 1) size below

/-- A class header at module level closes every bracket before it. -/
def moduleDepth (depth : Nat) (text : Line) : Nat :=
  if (className? (trim text)).isSome then 0 else depth

/-- The steps of the scan from a line on.  The first `skip` lines belong to the function before
them; the string state passes over a function's block as if it were not there. -/
def outlineFrom (strings : StringState) (depth number skip : Nat) : List Line → List Step
  | [] => []
  | text :: below =>
    if skip > 0 then outlineFrom strings depth (number + 1) (skip - 1) below
    else if strings.inside then
      .line ⟨number, text, .quoted, below⟩ ::
        outlineFrom (strings.next text) depth (number + 1) 0 below
    else
      match roleAt (moduleDepth depth text) text with
      | .definition name parameters =>
        let size := (blockUnder text below).length
        let items := bodyItems none 0 (number + 1) size below
        .function ⟨number, text, name, parameters, below, items⟩ ::
          outlineFrom (strings.next text) 0 (number + 1) size below
      | role =>
        .line ⟨number, text, role, below⟩ ::
          outlineFrom (strings.next text) (role.depthAfter (moduleDepth depth text) text)
            (number + 1) 0 below

def outline (lines : List Line) : List Step :=
  outlineFrom none 0 1 0 lines

end CodeSurvey.Python
