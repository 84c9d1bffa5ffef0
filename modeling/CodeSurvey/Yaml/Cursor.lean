/-
A place in a YAML text.

A cursor knows its line and its column, since blocks are told apart by indentation.  Columns count
characters, a tab as one.
-/

namespace CodeSurvey.Yaml

/-- Spaces and tabs. -/
def isBlank (c : Char) : Bool := c == ' ' || c == '\t'

/-- The characters that end a line. -/
def isBreak (c : Char) : Bool :=
  c == '\n' || c == '\r' || c == '\x85' || c == '\u2028' || c == '\u2029'

/-- Blanks and breaks. -/
def isGap (c : Char) : Bool := isBlank c || isBreak c

/-- The characters a text may hold. -/
def isAllowed (c : Char) : Bool :=
  let n := c.toNat
  n == 0x09 || n == 0x0A || n == 0x0D || (0x20 ≤ n && n ≤ 0x7E) || n == 0x85 ||
    (0xA0 ≤ n && n ≤ 0xD7FF) || (0xE000 ≤ n && n ≤ 0xFFFD) || 0x10000 ≤ n

/-- A place in a text, with what follows it. -/
structure Cursor where
  index : Nat
  line : Nat
  column : Nat
  rest : List Char
deriving DecidableEq, Repr

namespace Cursor

def start (text : List Char) : Cursor := ⟨0, 0, 0, text⟩

/-- The character at the cursor. -/
def peek? (c : Cursor) : Option Char := c.rest.head?

/-- Whether the character at the cursor is the given one. -/
def looksAt (c : Cursor) (d : Char) : Bool := c.rest.head? == some d

/-- Whether the text ends `n` characters on, or goes on with a blank or a break. -/
def gapAfter (c : Cursor) (n : Nat) : Bool :=
  match c.rest.drop n with
  | [] => true
  | d :: _ => isGap d

/-- Pass `n` characters of the line. -/
def skip (c : Cursor) (n : Nat) : Cursor :=
  { c with index := c.index + n, column := c.column + n, rest := c.rest.drop n }

/-- Pass the characters of a class; none of them is a break. -/
def skipWhile (c : Cursor) (p : Char → Bool) : Cursor := c.skip (c.rest.takeWhile p).length

/-- Pass a break.  A carriage return with its newline is one break; all but the line and paragraph
separators count as a newline. -/
def takeBreak? (c : Cursor) : Option (Char × Cursor) :=
  match c.rest with
  | '\r' :: '\n' :: rest => some ('\n', ⟨c.index + 2, c.line + 1, 0, rest⟩)
  | d :: rest =>
    if isBreak d then
      let kept := if d == '\u2028' || d == '\u2029' then d else '\n'
      some (kept, ⟨c.index + 1, c.line + 1, 0, rest⟩)
    else none
  | [] => none

/-- Pass blanks, a comment, and the break behind them; none if other text comes first. -/
def endOfLine? (c : Cursor) : Option Cursor :=
  let c := c.skipWhile isBlank
  let c := if c.looksAt '#' then c.skipWhile (fun d => !isBreak d) else c
  if c.rest.isEmpty then some c else c.takeBreak?.map (·.2)

/-- Whether a document marker of three equal characters stands at the start of the line. -/
def atMarker (c : Cursor) (mark : Char) : Bool :=
  c.column == 0 && [mark, mark, mark].isPrefixOf c.rest && c.gapAfter 3

def atDocumentEdge (c : Cursor) : Bool := c.atMarker '-' || c.atMarker '.'

end Cursor

end CodeSurvey.Yaml
