/-
Masking: hiding string contents and comments.

A masked line keeps every code character where it was and holds a space for everything inside a
string, a comment or a regular expression literal, so that a search for names never sees a word
that is not code.  The mask is a machine that reads one character, looks at the next, and writes
exactly one character: a masked line is as long as the line.
-/
import CodeSurvey.Text.Lines

namespace CodeSurvey

open Text

/-- How a line comment begins, and with it the family of literals a language has. -/
inductive CommentStyle where
  /-- A number sign; strings stand in single or double quotes. -/
  | hash
  /-- Two slashes; also block comments, backtick strings and regular expression literals. -/
  | slashes
deriving DecidableEq, Repr

namespace Masking

/-- Where the machine stands.  `prev` is the last code character that is not blank: it decides
whether a slash divides or opens a regular expression. -/
inductive Mode where
  | code (prev : Option Char)
  | string (closer : Char) (escaped : Bool)
  | regex (inClass escaped : Bool)
  | lineComment
  /-- The slash of an opener is read and its star is next. -/
  | blockOpening (prev : Option Char)
  | block (prev : Option Char)
  /-- The star of a closer is read and its slash is next. -/
  | blockClosing (prev : Option Char)
deriving DecidableEq, Repr

/-- Whether a line that ends in this mode leaves a block comment open. -/
def Mode.inBlock : Mode → Bool
  | .block _ => true
  | _ => false

/-- After these characters, or at the start of the code, a slash opens a regular expression. -/
def regexMayFollow : Option Char → Bool
  | none => true
  | some c => ['(', '=', ',', ':', '[', '!', '&', '|', '?', '{', '}', ';'].contains c

/-- The characters that open a string. -/
def isQuote (style : CommentStyle) (c : Char) : Bool :=
  c = '"' || c = '\'' || (c = '\x60' && style = .slashes)

/-- Whether a line comment begins at a character with the given successor. -/
def startsComment (style : CommentStyle) (c : Char) (next : Option Char) : Bool :=
  match style with
  | .hash => c = '#'
  | .slashes => c = '/' && next = some '/'

/-- Remember a code character unless it is blank. -/
def remember (prev : Option Char) (c : Char) : Option Char :=
  if isBlank c then prev else some c

def stepCode (style : CommentStyle) (prev : Option Char) (c : Char) (next : Option Char) :
    Mode × Char :=
  if startsComment style c next then (.lineComment, ' ')
  else if style = .slashes && c = '/' && next = some '*' then (.blockOpening prev, ' ')
  else if style = .slashes && c = '/' && regexMayFollow prev then (.regex false false, c)
  else if isQuote style c then (.string c false, c)
  else (.code (remember prev c), c)

/-- One step inside a string: an escape hides the character after it. -/
def stepString (closer : Char) (escaped : Bool) (c : Char) : Mode × Char :=
  if escaped then (.string closer false, ' ')
  else if c = '\\' then (.string closer true, ' ')
  else if c = closer then (.code (some c), c)
  else (.string closer false, ' ')

/-- One step inside a regular expression: a slash within a character class does not close it. -/
def stepRegex (inClass escaped : Bool) (c : Char) : Mode × Char :=
  if escaped then (.regex inClass false, ' ')
  else if c = '\\' then (.regex inClass true, ' ')
  else if c = '[' then (.regex true false, ' ')
  else if inClass && c = ']' then (.regex false false, ' ')
  else if c = '/' && !inClass then (.code (some c), c)
  else (.regex inClass false, ' ')

def stepBlock (prev : Option Char) (c : Char) (next : Option Char) : Mode × Char :=
  if c = '*' && next = some '/' then (.blockClosing prev, ' ') else (.block prev, ' ')

/-- Read one character, knowing the next, and write one. -/
def step (style : CommentStyle) (mode : Mode) (c : Char) (next : Option Char) : Mode × Char :=
  match mode with
  | .code prev => stepCode style prev c next
  | .string closer escaped => stepString closer escaped c
  | .regex inClass escaped => stepRegex inClass escaped c
  | .lineComment => (.lineComment, ' ')
  | .blockOpening prev => (.block prev, ' ')
  | .block prev => stepBlock prev c next
  | .blockClosing prev => (.code prev, ' ')

def run (style : CommentStyle) (mode : Mode) : Line → Line × Mode
  | [] => ([], mode)
  | c :: rest =>
    let (mode', out) := step style mode c rest.head?
    let (masked, last) := run style mode' rest
    (out :: masked, last)

/-- The mode a line begins in: only a block comment is carried from the line before. -/
def startMode (inBlock : Bool) : Mode :=
  if inBlock then .block none else .code none

def maskFrom (style : CommentStyle) (inBlock : Bool) (line : Line) : Line × Bool :=
  let (masked, last) := run style (startMode inBlock) line
  (masked, last.inBlock)

def maskLinesFrom (style : CommentStyle) (inBlock : Bool) : List Line → List Line
  | [] => []
  | line :: rest =>
    let (masked, inBlock') := maskFrom style inBlock line
    masked :: maskLinesFrom style inBlock' rest

end Masking

def maskLine (style : CommentStyle) (line : Line) : Line :=
  (Masking.maskFrom style false line).1

def maskLines (style : CommentStyle) (lines : List Line) : List Line :=
  Masking.maskLinesFrom style false lines

end CodeSurvey
