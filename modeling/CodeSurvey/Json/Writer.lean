/-
Writing JSON.

Two layouts: compact, on one line without blanks, and pretty, with two spaces for each level and
one item or member to a line.  Empty arrays and objects stand on one line in both.  Characters
above ASCII are written as themselves.
-/
import CodeSurvey.Json.Value

namespace CodeSurvey.Json

/-- Four lower-case hexadecimal digits. -/
def hex4 (n : Nat) : List Char :=
  [n / 4096 % 16, n / 256 % 16, n / 16 % 16, n % 16].map Nat.digitChar

/-- How one character stands in a string literal. -/
def escapeChar (c : Char) : List Char :=
  if c = '"' then ['\\', '"']
  else if c = '\\' then ['\\', '\\']
  else if c = '\n' then ['\\', 'n']
  else if c = '\r' then ['\\', 'r']
  else if c = '\t' then ['\\', 't']
  else if c = '\x08' then ['\\', 'b']
  else if c = '\x0c' then ['\\', 'f']
  else if c.toNat < 0x20 then ['\\', 'u'] ++ hex4 c.toNat
  else [c]

def literalOf (text : String) : List Char :=
  '"' :: text.toList.flatMap escapeChar ++ ['"']

/-- The decimal digits of a whole number. -/
def digitsOf (n : Int) : List Char := (toString n).toList

/-- A new line, indented to a level. -/
def newline (level : Nat) : List Char :=
  '\n' :: List.replicate (2 * level) ' '

mutual

/-- A value in the compact layout. -/
def compactChars : Json → List Char
  | .null => "null".toList
  | .bool true => "true".toList
  | .bool false => "false".toList
  | .int n => digitsOf n
  | .decimal text => text.toList
  | .string text => literalOf text
  | .broken => "null".toList
  | .array [] => ['[', ']']
  | .array (item :: rest) => '[' :: compactChars item ++ compactItems rest
  | .object [] => ['{', '}']
  | .object ((key, value) :: rest) =>
    '{' :: literalOf key ++ ':' :: compactChars value ++ compactMembers rest

def compactItems : List Json → List Char
  | [] => [']']
  | item :: rest => ',' :: compactChars item ++ compactItems rest

/-- The members behind the first, and the closing brace. -/
def compactMembers : List (String × Json) → List Char
  | [] => ['}']
  | (key, value) :: rest =>
    ',' :: literalOf key ++ ':' :: compactChars value ++ compactMembers rest

end

mutual

/-- A value in the pretty layout, on a line that is indented to a level. -/
def prettyChars (level : Nat) : Json → List Char
  | .null => "null".toList
  | .bool true => "true".toList
  | .bool false => "false".toList
  | .int n => digitsOf n
  | .decimal text => text.toList
  | .string text => literalOf text
  | .broken => "null".toList
  | .array [] => ['[', ']']
  | .array (item :: rest) =>
    '[' :: newline (level + 1) ++ prettyChars (level + 1) item ++ prettyItems level rest
  | .object [] => ['{', '}']
  | .object ((key, value) :: rest) =>
    '{' :: newline (level + 1) ++ literalOf key ++ ':' :: ' ' ::
      prettyChars (level + 1) value ++ prettyMembers level rest

def prettyItems (level : Nat) : List Json → List Char
  | [] => newline level ++ [']']
  | item :: rest =>
    ',' :: newline (level + 1) ++ prettyChars (level + 1) item ++ prettyItems level rest

/-- The members behind the first, and the closing brace on a line of its own. -/
def prettyMembers (level : Nat) : List (String × Json) → List Char
  | [] => newline level ++ ['}']
  | (key, value) :: rest =>
    ',' :: newline (level + 1) ++ literalOf key ++ ':' :: ' ' ::
      prettyChars (level + 1) value ++ prettyMembers level rest

end

/-- The text of a value on one line. -/
def compact (value : Json) : String := String.ofList value.compactChars

/-- The text of a value over several lines. -/
def pretty (value : Json) : String := String.ofList (value.prettyChars 0)

end CodeSurvey.Json
