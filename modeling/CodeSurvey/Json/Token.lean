/-
Tokens of a JSON text.

A lexer reads one character at a time.  Between tokens it stands idle; within a string, a number
or a word it keeps what it has read.  A token ends the number or word before it, so every
character is read once.
-/
import CodeSurvey.Count
import CodeSurvey.Json.Value
import CodeSurvey.Text.Chars

namespace CodeSurvey.Json

/-- A token: a mark, or a whole scalar. -/
inductive Token where
  | openBracket
  | closeBracket
  | openBrace
  | closeBrace
  | comma
  | colon
  | scalar (value : Json)
deriving Repr

/-- What a string literal has read since its last backslash. -/
inductive EscapeState where
  | plain
  | escaped
  /-- Within a code unit escape: how many digits are missing, and the number so far. -/
  | unit (missing value : Nat)
deriving DecidableEq, Repr

/-- Where the lexer stands.  Text read so far is kept latest first. -/
inductive LexState where
  | idle
  | string (units : List Nat) (escape : EscapeState)
  | number (read : List Char)
  | word (read : List Char)
deriving DecidableEq, Repr

/-- Whether a code unit is the first half of a surrogate pair. -/
def isHighSurrogate (n : Nat) : Bool := 0xD800 ≤ n && n < 0xDC00

/-- Whether a code unit is the second half of a surrogate pair. -/
def isLowSurrogate (n : Nat) : Bool := 0xDC00 ≤ n && n < 0xE000

/-- The text of code points in which escapes may have left surrogates, unless one is unpaired. -/
def joinPairs : List Nat → Option (List Char)
  | [] => some []
  | [n] => if isHighSurrogate n || isLowSurrogate n then none else some [Char.ofNat n]
  | n :: m :: rest =>
    if isHighSurrogate n then
      if isLowSurrogate m then
        (joinPairs rest).map (Char.ofNat (0x10000 + (n - 0xD800) * 0x400 + (m - 0xDC00)) :: ·)
      else none
    else if isLowSurrogate n then none
    else (joinPairs (m :: rest)).map (Char.ofNat n :: ·)

def stringValue (units : List Nat) : Json :=
  match joinPairs units with
  | some text => .string (String.ofList text)
  | none => .broken

def decimalValue (digits : List Char) : Nat :=
  digits.foldl (fun n c => 10 * n + (c.toNat - '0'.toNat)) 0

/-- Whether digits make the whole part of a number: no zero leads others. -/
def isWholePart (digits : List Char) : Bool :=
  !digits.isEmpty && digits.all Char.isDigit && (digits.head? != some '0' || digits.length == 1)

/-- Whether a text is empty or an exponent with at least one digit. -/
def isExponent : List Char → Bool
  | [] => true
  | e :: rest =>
    let digits :=
      match rest with
      | '+' :: digits => digits
      | '-' :: digits => digits
      | digits => digits
    (e == 'e' || e == 'E') && !digits.isEmpty && digits.all Char.isDigit

/-- Whether a text is a fraction and an exponent, either of which may be missing. -/
def isTail : List Char → Bool
  | '.' :: rest =>
    let digits := rest.takeWhile Char.isDigit
    !digits.isEmpty && isExponent (rest.drop digits.length)
  | rest => isExponent rest

def numberValue? (text : List Char) : Option Json :=
  let (negative, body) :=
    match text with
    | '-' :: body => (true, body)
    | body => (false, body)
  let whole := body.takeWhile Char.isDigit
  let tail := body.drop whole.length
  if isWholePart whole && isTail tail then
    let n := decimalValue whole
    if tail.isEmpty && !negative && n < Count.limit then some (.int n)
    else if tail.isEmpty && negative && 0 < n && n ≤ Count.limit / 2 then some (.int (-(n : Int)))
    else some (.decimal (String.ofList text))
  else none

def wordValue? (text : List Char) : Option Json :=
  if text == "null".toList then some .null
  else if text == "true".toList then some (.bool true)
  else if text == "false".toList then some (.bool false)
  else none

/-- The value of a hexadecimal digit. -/
def hexValue? (c : Char) : Option Nat :=
  if c.isDigit then some (c.toNat - '0'.toNat)
  else if 'a' ≤ c && c ≤ 'f' then some (c.toNat - 'a'.toNat + 10)
  else if 'A' ≤ c && c ≤ 'F' then some (c.toNat - 'A'.toNat + 10)
  else none

/-- The character that a one letter escape stands for. -/
def escapeValue? (c : Char) : Option Char :=
  match c with
  | '"' => some '"'
  | '\\' => some '\\'
  | '/' => some '/'
  | 'b' => some '\x08'
  | 'f' => some '\x0c'
  | 'n' => some '\n'
  | 'r' => some '\r'
  | 't' => some '\t'
  | _ => none

def mark? (c : Char) : Option Token :=
  match c with
  | '[' => some .openBracket
  | ']' => some .closeBracket
  | '{' => some .openBrace
  | '}' => some .closeBrace
  | ',' => some .comma
  | ':' => some .colon
  | _ => none

/-- The blanks allowed between tokens. -/
def isGap (c : Char) : Bool := c == ' ' || c == '\n' || c == '\r' || c == '\t'

/-- The characters a number may go on with. -/
def isNumberChar (c : Char) : Bool :=
  c.isDigit || c == '-' || c == '+' || c == '.' || c == 'e' || c == 'E'

/-- Read a character between tokens. -/
def lexIdle (c : Char) : Option (LexState × List Token) :=
  if isGap c then some (.idle, [])
  else
    match mark? c with
    | some token => some (.idle, [token])
    | none =>
      if c == '"' then some (.string [] .plain, [])
      else if c.isDigit || c == '-' then some (.number [c], [])
      else if c.isAlpha then some (.word [c], [])
      else none

/-- Read a character of a string literal. -/
def lexString (units : List Nat) (escape : EscapeState) (c : Char) :
    Option (LexState × List Token) :=
  match escape with
  | .plain =>
    if c == '"' then some (.idle, [.scalar (stringValue units.reverse)])
    else if c == '\\' then some (.string units .escaped, [])
    else if c.toNat < 0x20 then none
    else some (.string (c.toNat :: units) .plain, [])
  | .escaped =>
    if c == 'u' then some (.string units (.unit 4 0), [])
    else (escapeValue? c).map (fun d => (.string (d.toNat :: units) .plain, []))
  | .unit missing value =>
    (hexValue? c).map (fun digit =>
      let value := 16 * value + digit
      if missing ≤ 1 then (.string (value :: units) .plain, [])
      else (.string units (.unit (missing - 1) value), []))

/-- Read a character behind a finished scalar. -/
def lexAfter (value : Option Json) (c : Char) : Option (LexState × List Token) :=
  match value, lexIdle c with
  | some value, some (state, tokens) => some (state, .scalar value :: tokens)
  | _, _ => none

/-- Read one character. -/
def lexStep (state : LexState) (c : Char) : Option (LexState × List Token) :=
  match state with
  | .idle => lexIdle c
  | .string units escape => lexString units escape c
  | .number read =>
    if isNumberChar c then some (.number (c :: read), [])
    else lexAfter (numberValue? read.reverse) c
  | .word read =>
    if c.isAlpha then some (.word (c :: read), []) else lexAfter (wordValue? read.reverse) c

def lexEnd (state : LexState) : Option (List Token) :=
  match state with
  | .idle => some []
  | .string _ _ => none
  | .number read => (numberValue? read.reverse).map (fun value => [.scalar value])
  | .word read => (wordValue? read.reverse).map (fun value => [.scalar value])

def lexFrom (state : LexState) : List Char → Option (List Token)
  | [] => lexEnd state
  | c :: rest =>
    match lexStep state c with
    | none => none
    | some (state', tokens) => (lexFrom state' rest).map (tokens ++ ·)

def tokens? (text : List Char) : Option (List Token) := lexFrom .idle text

end CodeSurvey.Json
