/-
The overview of a source: lines, functions and comments.

A language without rules of its own gets no more than this.  Every line is read by itself, so no
state is carried from one to the next, and that is what makes the overview of two sources put
together the sum of theirs.  A language has a pattern for functions and one for comments, or
neither; without patterns only the lines are counted.

Neither pattern knows of strings.  A comment mark in a string counts as a comment and a `def` in one
as a function: the overview is a heuristic and says so in its summary.
-/
import CodeSurvey.Pattern.Search
import CodeSurvey.Text.Lines
import CodeSurvey.Language
import CodeSurvey.NameSet

namespace CodeSurvey

/-- What a source shows of which only lines are known. -/
structure Overview where
  language : Language
  lines : Nat
  /-- Names of functions, in the order first seen. -/
  functions : List String
  /-- Lines that hold a comment. -/
  comments : Nat
  info : List String
deriving DecidableEq, Repr

end CodeSurvey

namespace CodeSurvey.Overview

open Text Pattern

/-- How a language writes functions and comments. -/
structure Rules where
  /-- Group 1 is the name. -/
  function : Pattern
  comment : Pattern

/-- Whether a character may stand in a function name of ASCII letters and digits. -/
def isPlainName (c : Char) : Bool := c.isAlphanum || c == '_'

def blockComment : Pattern := literal "/*" ++ few notNewline ++ literal "*/"

/-- Ruby: `def name`, where the name may end in a mark; comments behind a number sign. -/
def rubyRules : Rules :=
  { function := wordEdge ++ literal "def" ++ blanks1 ++
      group 1 (some1 (fun c => isPlainName c || c == '!' || c == '?'))
    comment := char '#' }

/-- PHP: `function name`; three kinds of comments. -/
def phpRules : Rules :=
  { function := wordEdge ++ literal "function" ++ blanks1 ++ group 1 (some1 isPlainName)
    comment := either (literal "//") (either (char '#') blockComment) }

/-- Go: `func name`, perhaps with a receiver in parentheses before the name. -/
def goRules : Rules :=
  { function := wordEdge ++ literal "func" ++ blanks1 ++
      optional (char '(' ++ many (· != ')') ++ char ')' ++ blanks) ++ group 1 (some1 isPlainName)
    comment := either (literal "//") blockComment }

def rules? : Language → Option Rules
  | .ruby => some rubyRules
  | .php => some phpRules
  | .go => some goRules
  | _ => none

def Rules.functionsOf (r : Rules) (line : Line) : List String :=
  (r.function.findAll line).map (fun m => String.ofList (m.groupText 1))

def Rules.hasComment (r : Rules) (line : Line) : Bool := r.comment.occurs line

def functionsOf (rules : Option Rules) (lines : List Line) : List String :=
  match rules with
  | some r => (NameSet.ofList (lines.flatMap r.functionsOf)).toList
  | none => []

def commentsOf (rules : Option Rules) (lines : List Line) : Nat :=
  match rules with
  | some r => lines.countP r.hasComment
  | none => 0

def noFunctionsNotice : String := "No functions detected (simple heuristic)."

def noCommentsNotice : String := "No comments found."

/-- What there is to say of missing functions and comments. -/
def notices (functions : List String) (comments : Nat) : List String :=
  (if functions.isEmpty then [noFunctionsNotice] else []) ++
    (if comments = 0 then [noCommentsNotice] else [])

def ofLines (language : Language) (lines : List Line) : Overview :=
  let functions := functionsOf (rules? language) lines
  let comments := commentsOf (rules? language) lines
  { language
    lines := lines.length
    functions
    comments
    info := notices functions comments }

def analyze (language : Language) (source : String) : Overview :=
  ofLines language (linesOf source)

end CodeSurvey.Overview
