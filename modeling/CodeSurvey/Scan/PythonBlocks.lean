/-
Blocks by indentation, and strings over several lines.

A header's block is the run of lines below it that are blank or indented deeper.  Whether a line
begins inside a triple quoted string is followed by a machine of its own, which reads whole lines.

The two do not know of each other.  A line of a string that is indented less than the body ends the
block, and a comment does the same, since only blank lines are passed over.
-/
import CodeSurvey.Masking

namespace CodeSurvey.Python

open Text

/-- Whether a line below a header of the given indent belongs to its block. -/
def inBlock (indent : Nat) (line : Line) : Bool :=
  isBlankText line || indent < indentWidth line

/-- The block of a header: the longest run below it of lines that are blank or deeper. -/
def blockUnder (header : Line) (below : List Line) : List Line :=
  below.takeWhile (inBlock (indentWidth header))

def isCommentLine (line : Line) : Bool :=
  (trim line).head? == some '#'

/-- Whether a line is neither blank nor only a comment. -/
def hasContent (line : Line) : Bool :=
  !isBlankText line && !isCommentLine line

def firstContent? (lines : List Line) : Option (Nat × Line) :=
  match lines.findIdx? hasContent with
  | some n => lines[n]?.map (fun line => (n, line))
  | none => none

/-- The two ways to quote a string that may span lines. -/
inductive TripleQuote where
  | double
  | single
deriving DecidableEq, Repr

def TripleQuote.text : TripleQuote → List Char
  | double => ['"', '"', '"']
  | single => ['\'', '\'', '\'']

/-- The triple quote that is open at the start of a line, if one is. -/
abbrev StringState := Option TripleQuote

/-- Whether a masked line leaves a string open: a triple quote stands in it an odd number of
times. -/
def leavesOpen (masked : Line) (quote : TripleQuote) : Bool :=
  occurrences quote.text masked % 2 == 1

/-- The state behind a line that begins outside every string. -/
def openedBy (line : Line) : StringState :=
  [TripleQuote.double, TripleQuote.single].find? (leavesOpen (maskLine .hash line))

def StringState.next (state : StringState) (line : Line) : StringState :=
  match state with
  | some quote => if occursIn quote.text line then none else some quote
  | none => openedBy line

/-- Whether a line that the machine is about to read begins inside a string. -/
def StringState.inside (state : StringState) : Bool := state.isSome

def insideString (state : StringState) : List Line → List Bool
  | [] => []
  | line :: rest => state.inside :: insideString (state.next line) rest

end CodeSurvey.Python
