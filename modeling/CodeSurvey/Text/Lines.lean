/-
Lines of a source text.

Line endings are made uniform first, so that a line number is a position in the text cut at
newlines whatever endings the input used.  Lines are numbered from 1; offsets count bytes of the
UTF-8 form.
-/
import CodeSurvey.Count
import CodeSurvey.Text.Chars

namespace CodeSurvey.Text

/-- One line, without its newline. -/
abbrev Line := List Char

/-- Turn every carriage return, alone or before a newline, into one newline. -/
def unifyEndings : List Char → List Char
  | [] => []
  | '\r' :: '\n' :: rest => '\n' :: unifyEndings rest
  | '\r' :: rest => '\n' :: unifyEndings rest
  | c :: rest => c :: unifyEndings rest

/-- The lines of a text with uniform endings; a final newline is followed by one empty line. -/
def splitLines (text : List Char) : List Line :=
  splitAt '\n' text

def linesOf (source : String) : List Line :=
  splitLines (unifyEndings source.toList)

def eachLine {α : Type} (rule : Nat → Line → List α) (number : Nat) : List Line → List α
  | [] => []
  | line :: rest => rule number line ++ eachLine rule (number + 1) rest

/-- What a tab counts for in indentation. -/
def tabWidth : Nat := 4

def blankWidth (c : Char) : Nat :=
  if c = '\t' then tabWidth else 1

def indentWidth (line : Line) : Nat :=
  Count.total ((line.takeWhile isBlank).map blankWidth)

def newlinesBefore : List Char → Nat → Nat
  | [], _ => 0
  | c :: rest, offset =>
    if offset = 0 then 0
    else (if c = '\n' then 1 else 0) + newlinesBefore rest (offset - c.utf8Size)

/-- Number of the line that a byte offset lies on; an offset beyond the end is on the last line. -/
def lineAt (text : List Char) (offset : Nat) : Nat :=
  newlinesBefore text offset + 1

end CodeSurvey.Text
