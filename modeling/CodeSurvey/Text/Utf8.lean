/-
Text and its UTF-8 bytes.

A decoder reads one byte at a time.  Within a sequence it knows how many bytes are missing and
which range the next one must fall in; the range rules out overlong forms, surrogates and code
points beyond the last plane.  A byte outside the range ends the sequence as malformed and is read
again as the first of the next, so one malformed stretch is as long as it could still have become
a character.
-/

namespace CodeSurvey.Text

def utf8Bytes (text : String) : List UInt8 := text.toUTF8.toList

/-- A sequence that is not complete yet. -/
structure Utf8Tail where
  /-- The bits read so far. -/
  value : Nat
  /-- How many bytes are missing; at least one. -/
  missing : Nat
  /-- The least value the next byte may have. -/
  lo : Nat
  /-- The greatest value the next byte may have. -/
  hi : Nat
deriving DecidableEq, Repr

/-- What one byte completes: a character, or nothing for a malformed stretch. -/
abbrev Utf8Piece := Option Char

/-- Read the first byte of a sequence. -/
def utf8Lead (b : Nat) : Option Utf8Tail × List Utf8Piece :=
  if b < 0x80 then (none, [some (Char.ofNat b)])
  else if b < 0xC2 then (none, [none])
  else if b < 0xE0 then (some ⟨b - 0xC0, 1, 0x80, 0xBF⟩, [])
  else if b = 0xE0 then (some ⟨0, 2, 0xA0, 0xBF⟩, [])
  else if b = 0xED then (some ⟨0xD, 2, 0x80, 0x9F⟩, [])
  else if b < 0xF0 then (some ⟨b - 0xE0, 2, 0x80, 0xBF⟩, [])
  else if b = 0xF0 then (some ⟨0, 3, 0x90, 0xBF⟩, [])
  else if b < 0xF4 then (some ⟨b - 0xF0, 3, 0x80, 0xBF⟩, [])
  else if b = 0xF4 then (some ⟨4, 3, 0x80, 0x8F⟩, [])
  else (none, [none])

/-- Read one byte. -/
def utf8Step (state : Option Utf8Tail) (byte : UInt8) : Option Utf8Tail × List Utf8Piece :=
  let b := byte.toNat
  match state with
  | none => utf8Lead b
  | some tail =>
    if tail.lo ≤ b ∧ b ≤ tail.hi then
      let value := 64 * tail.value + (b - 0x80)
      if tail.missing ≤ 1 then (none, [some (Char.ofNat value)])
      else (some ⟨value, tail.missing - 1, 0x80, 0xBF⟩, [])
    else
      let (next, pieces) := utf8Lead b
      (next, none :: pieces)

/-- The pieces of bytes, read on from a state; a sequence cut off by the end is malformed. -/
def utf8Pieces (state : Option Utf8Tail) : List UInt8 → List Utf8Piece
  | [] => if state.isSome then [none] else []
  | byte :: rest =>
    let (next, pieces) := utf8Step state byte
    pieces ++ utf8Pieces next rest

/-- The text of bytes, if they are well formed. -/
def decodeUtf8? (bytes : List UInt8) : Option String :=
  ((utf8Pieces none bytes).mapM id).map String.ofList

/-- What stands for a malformed stretch. -/
def replacement : Char := '\uFFFD'

/-- The text of bytes, with a replacement character for every malformed stretch. -/
def decodeUtf8Lossy (bytes : List UInt8) : String :=
  String.ofList ((utf8Pieces none bytes).map (·.getD replacement))

end CodeSurvey.Text
