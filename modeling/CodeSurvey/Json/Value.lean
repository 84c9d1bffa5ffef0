/-
JSON values.

An object keeps its members in the order they were written, repeats included, so that a reader of
records can tell whether a key was given twice.  Whole numbers that fit 64 bits are kept exactly;
other numbers are kept as their text, since no record here holds one.
-/

namespace CodeSurvey

/-- A JSON value. -/
inductive Json where
  | null
  | bool (b : Bool)
  /-- A whole number from `-2^63` to `2^64 - 1`, zero without a sign. -/
  | int (n : Int)
  /-- Any other number, as it was written. -/
  | decimal (text : String)
  | string (text : String)
  /-- A string literal with an unpaired surrogate, or an object with such a key: well formed, but
  neither a text nor a record. -/
  | broken
  | array (items : List Json)
  | object (members : List (String × Json))
deriving Repr, Inhabited

namespace Json

/-- A natural number. -/
def nat (n : Nat) : Json := .int n

def strings (texts : List String) : Json := .array (texts.map .string)

def nats (numbers : List Nat) : Json := .array (numbers.map nat)

def ofOption : Option String → Json
  | some text => .string text
  | none => .null

def optionalMember (key : String) : Option Json → List (String × Json)
  | some value => [(key, value)]
  | none => []

end Json

end CodeSurvey
