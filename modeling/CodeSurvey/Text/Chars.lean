/-
Blanks, and cutting and comparing character lists.

Blank are the characters with the Unicode property White_Space; trimming, indentation and the blank
class of patterns all use this one class.  The passes read text as lists of characters, so that a
scan is a recursion on its input.  This module holds the cuts they share: trimming, splitting at a
separator, looking for a piece.
-/

namespace CodeSurvey.Text

/-- White space: the ASCII controls from tab to carriage return, the space, next line, and the
spaces and separators of other scripts. -/
def isBlank (c : Char) : Bool :=
  let n := c.toNat
  if n < 0x80 then (0x09 ≤ n && n ≤ 0x0D) || n == 0x20
  else n == 0x85 || n == 0xA0 || n == 0x1680 || (0x2000 ≤ n && n ≤ 0x200A) || n == 0x2028 ||
    n == 0x2029 || n == 0x202F || n == 0x205F || n == 0x3000

/-- Drop the characters of a class from the front. -/
def trimStartOf (p : Char → Bool) (text : List Char) : List Char :=
  text.dropWhile p

/-- Drop the characters of a class from the end. -/
def trimEndOf (p : Char → Bool) (text : List Char) : List Char :=
  (text.reverse.dropWhile p).reverse

/-- Drop blanks from both ends. -/
def trim (text : List Char) : List Char :=
  trimEndOf isBlank (trimStartOf isBlank text)

/-- Whether a text is empty or holds blanks only. -/
def isBlankText (text : List Char) : Bool :=
  text.all isBlank

def consFirst (c : Char) : List (List Char) → List (List Char)
  | [] => [[c]]
  | piece :: pieces => (c :: piece) :: pieces

/-- Cut a text at every character of a class; `n` separators give `n + 1` pieces. -/
def splitWhere (p : Char → Bool) : List Char → List (List Char)
  | [] => [[]]
  | c :: rest => if p c then [] :: splitWhere p rest else consFirst c (splitWhere p rest)

/-- Cut a text at every occurrence of one character. -/
def splitAt (sep : Char) (text : List Char) : List (List Char) :=
  splitWhere (· == sep) text

/-- The part of a text before the first character of a class. -/
def before (p : Char → Bool) (text : List Char) : List Char :=
  text.takeWhile (fun c => !p c)

/-- Remove a leading piece, if the text begins with it. -/
def stripPrefix? : List Char → List Char → Option (List Char)
  | [], text => some text
  | _ :: _, [] => none
  | p :: piece, c :: text => if p = c then stripPrefix? piece text else none

def occursIn (piece : List Char) : List Char → Bool
  | [] => piece.isEmpty
  | c :: text => piece.isPrefixOf (c :: text) || occursIn piece text

/-- Number of occurrences of a non-empty piece that do not overlap, counted from the left.
`skip` characters still belong to the occurrence found last. -/
def countFrom (piece : List Char) (skip : Nat) : List Char → Nat
  | [] => 0
  | c :: text =>
    if skip > 0 then countFrom piece (skip - 1) text
    else if piece.isPrefixOf (c :: text) then 1 + countFrom piece (piece.length - 1) text
    else countFrom piece 0 text

/-- Number of disjoint occurrences of a non-empty piece. -/
def occurrences (piece text : List Char) : Nat :=
  countFrom piece 0 text

/-- Lower-case the ASCII letters and keep all else. -/
def lowerAscii (text : List Char) : List Char :=
  text.map Char.toLower

end CodeSurvey.Text
