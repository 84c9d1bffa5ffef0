/-
The tokens of a YAML text.

Blocks begin and end by indentation, and a key is known as one only by the colon behind it.  So the
machine keeps the columns of the open blocks and, for each open bracket and for the block around
them, where a key may have begun; a colon then puts the token for the key in front of it.
-/
import CodeSurvey.Text.Utf8
import CodeSurvey.Yaml.Scalar
import CodeSurvey.Yaml.Value

namespace CodeSurvey.Yaml

/-- A token. -/
inductive Token where
  | documentStart
  | documentEnd
  /-- The version that a document is written for. -/
  | version (major minor : Nat)
  /-- What a tag handle stands for. -/
  | tagHandle (handle stem : String)
  | blockSequence
  | blockMapping
  /-- The end of a sequence or mapping in block style. -/
  | blockEnd
  | flowSequence
  | flowSequenceEnd
  | flowMapping
  | flowMappingEnd
  | blockEntry
  | flowEntry
  | key
  | value
  | reference (name : String)
  | anchor (name : String)
  | tag (handle suffix : String)
  | scalar (style : ScalarStyle) (text : String)
deriving DecidableEq, Repr

/-- Where a key may have begun. -/
structure KeyStart where
  /-- How many tokens came before it. -/
  before : Nat
  index : Nat
  line : Nat
  column : Nat
  /-- Whether nothing but a key may stand there. -/
  needed : Bool
deriving DecidableEq, Repr

/-- The machine. -/
structure Lexer where
  cursor : Cursor
  /-- The columns of the open blocks, innermost first. -/
  columns : List Nat
  /-- Where a key may have begun: first within the innermost bracket, last outside brackets. -/
  keys : List (Option KeyStart)
  /-- Whether a key may begin at the cursor. -/
  keyAllowed : Bool
  /-- The tokens so far, latest first. -/
  tokens : List Token
deriving Repr

namespace Lexer

/-- The machine before the first character. -/
def start (text : List Char) : Lexer := ⟨Cursor.start text, [], [none], true, []⟩

/-- Whether a bracket is open. -/
def inFlow (l : Lexer) : Bool := 1 < l.keys.length

/-- One more than the column of the innermost block. -/
def least (l : Lexer) : Nat := (l.columns.head?.map (· + 1)).getD 0

/-- Add a token. -/
def emit (l : Lexer) (token : Token) : Lexer := { l with tokens := token :: l.tokens }

/-- Pass `n` characters and add a token for them. -/
def take (l : Lexer) (n : Nat) (token : Token) : Lexer :=
  { l with cursor := l.cursor.skip n, tokens := token :: l.tokens }

/-- Say whether a key may begin at the cursor. -/
def allowKey (l : Lexer) (allowed : Bool) : Lexer := { l with keyAllowed := allowed }

/-- End the blocks that are indented deeper than a column, or all of them. -/
def unroll (l : Lexer) (column : Option Nat) : Lexer :=
  if l.inFlow then l
  else
    let ended := l.columns.takeWhile (fun n => column.all (· < n))
    { l with
      columns := l.columns.drop ended.length
      tokens := List.replicate ended.length .blockEnd ++ l.tokens }

/-- Begin a block at a column, unless it is the column of the innermost block; the token goes in
front of all but the first `before` tokens. -/
def roll (l : Lexer) (column before : Nat) (token : Token) : Lexer :=
  if l.inFlow || l.columns.head?.any (column ≤ ·) then l
  else
    let later := l.tokens.length - before
    { l with
      columns := column :: l.columns
      tokens := l.tokens.take later ++ token :: l.tokens.drop later }

/-- Give up the key that may have begun; none if it is needed. -/
def dropKey (l : Lexer) : Option Lexer :=
  match l.keys with
  | some k :: outer => if k.needed then none else some { l with keys := none :: outer }
  | _ => some l

/-- Note that a key may begin at the cursor. -/
def noteKey (l : Lexer) : Option Lexer :=
  if !l.keyAllowed then some l
  else
    l.dropKey.map fun l =>
      let c := l.cursor
      let needed := !l.inFlow && l.columns.head? == some c.column
      { l with keys := some ⟨l.tokens.length, c.index, c.line, c.column, needed⟩ :: l.keys.drop 1 }

/-- How long a key may be. -/
def longestKey : Nat := 1024

/-- Whether a key that may have begun has gone on to the cursor: on one line and not too long. -/
def isLive (k : KeyStart) (c : Cursor) : Bool :=
  c.line ≤ k.line && c.index ≤ k.index + longestKey

/-! ## Blanks and comments -/

/-- A mark that a line may begin with; it counts as one column. -/
def byteOrderMark : Char := '\uFEFF'

/-- Pass what stands between tokens.  A tab counts as a blank only where no key may begin. -/
def passGaps (l : Lexer) : Nat → Lexer
  | 0 => l
  | fuel + 1 =>
    let c := l.cursor
    let c := if c.column = 0 && c.looksAt byteOrderMark then c.skip 1 else c
    let c := c.skipWhile (fun d => d == ' ' || (d == '\t' && (l.inFlow || !l.keyAllowed)))
    let c := if c.looksAt '#' then c.skipWhile (fun d => !isBreak d) else c
    match c.takeBreak? with
    | some (_, next) =>
      passGaps { l with cursor := next, keyAllowed := l.keyAllowed || !l.inFlow } fuel
    | none => { l with cursor := c }

/-! ## Directives, tags and names -/

def isNameChar (c : Char) : Bool := c.isAlphanum || c == '-' || c == '_'

def isTagChar (c : Char) : Bool :=
  isNameChar c || [';', '/', '?', ':', '@', '&', '=', '+', '$', '.', '%', '!', '~', '*', '\'', '(',
    ')'].contains c

/-- The characters of a tag between angle brackets, or of what a handle stands for. -/
def isUriChar (c : Char) : Bool := isTagChar c || c == ',' || c == '[' || c == ']'

/-- The characters of a class at a cursor. -/
def run (p : Char → Bool) (c : Cursor) : String × Cursor :=
  let taken := c.rest.takeWhile p
  (String.ofList taken, c.skip taken.length)

/-- The octets of a part of a tag: those that escapes stand for, and the others as they are. -/
def tagOctets? : List Char → Option (List UInt8)
  | [] => some []
  | c :: rest =>
    if c = '%' then
      match rest with
      | high :: low :: rest => do
        let octet ← hexNumber? [high, low]
        return UInt8.ofNat octet :: (← tagOctets? rest)
      | _ => none
    else (tagOctets? rest).map (UInt8.ofNat c.toNat :: ·)

/-- How many octets go on with a character, by its first one. -/
def octetsBehind? (first : UInt8) : Option Nat :=
  if first < 0x80 then some 0
  else if first < 0xC0 then none
  else if first < 0xE0 then some 1
  else if first < 0xF0 then some 2
  else if first < 0xF8 then some 3
  else none

/-- Whether octets make whole characters, of which `behind` octets of the first are still to come;
which characters they make does not count. -/
def areWhole (behind : Nat) : List UInt8 → Bool
  | [] => behind == 0
  | octet :: rest =>
    match behind with
    | 0 => (octetsBehind? octet).any (fun behind => areWhole behind rest)
    | behind + 1 => 0x80 ≤ octet && octet < 0xC0 && areWhole behind rest

/-- The part of a tag at a cursor, of characters of a class.  A null character ends it early. -/
def tagText? (p : Char → Bool) (c : Cursor) : Option (String × Cursor) := do
  let taken := c.rest.takeWhile p
  let octets ← tagOctets? taken
  if !areWhole 0 octets then failure
  return (Text.decodeUtf8Lossy (octets.takeWhile (· != 0)), c.skip taken.length)

/-- A number of at most nine digits at a cursor. -/
def number? (c : Cursor) : Option (Nat × Cursor) :=
  let digits := c.rest.takeWhile Char.isDigit
  if digits.isEmpty || 9 < digits.length then none
  else some (digits.foldl (fun n d => 10 * n + (d.toNat - '0'.toNat)) 0, c.skip digits.length)

/-- A tag handle at a cursor: one exclamation mark, two, or a name between them. -/
def handle? (c : Cursor) : Option (String × Cursor) :=
  if !c.looksAt '!' then none
  else
    let (name, next) := run isNameChar (c.skip 1)
    if next.looksAt '!' then some ("!" ++ name ++ "!", next.skip 1)
    else if name.isEmpty then some ("!", next)
    else none

/-- The directive behind a percent sign, with the rest of its line. -/
def directive? (c : Cursor) : Option (Token × Cursor) := do
  let (name, c) := run isNameChar c
  if !c.gapAfter 0 then failure
  let c := c.skipWhile isBlank
  match name with
  | "YAML" =>
    let (major, c) ← number? c
    if !c.looksAt '.' then failure
    let (minor, c) ← number? (c.skip 1)
    return (.version major minor, ← c.endOfLine?)
  | "TAG" =>
    let (handle, c) ← handle? c
    if !c.peek?.any isBlank then failure
    let c := c.skipWhile isBlank
    if !c.peek?.any isUriChar then failure
    let (stem, c) ← tagText? isUriChar c
    if !c.gapAfter 0 then failure
    return (.tagHandle handle stem, ← c.endOfLine?)
  | _ => failure

def tag? (inFlow : Bool) (c : Cursor) : Option (Token × Cursor) := do
  let (token, c) ←
    if (c.skip 1).looksAt '<' then
      let c := c.skip 2
      if !c.peek?.any isUriChar then failure
      let (uri, c) ← tagText? isUriChar c
      if !c.looksAt '>' then failure
      pure (Token.tag "" uri, c.skip 1)
    else
      match handle? c with
      | some (handle, next) =>
        if handle != "!" && !next.peek?.any isTagChar then failure
        let (suffix, next) ← tagText? isTagChar next
        pure (if handle == "!" && suffix.isEmpty then .tag "" "!" else .tag handle suffix, next)
      | none =>
        let (suffix, next) ← tagText? isTagChar (c.skip 1)
        pure (Token.tag "!" suffix, next)
  if c.gapAfter 0 || (inFlow && c.looksAt ',') then return (token, c) else failure

/-- The name of an anchor or alias behind its mark. -/
def name? (c : Cursor) : Option (String × Cursor) :=
  let (name, c) := run isNameChar (c.skip 1)
  let closed := c.gapAfter 0 ||
    c.peek?.any (fun d => ['?', ':', ',', ']', '}', '%', '@', '\x60'].contains d)
  if name.isEmpty || !closed then none else some (name, c)

/-! ## Tokens -/

def endBlocks (l : Lexer) : Option Lexer := ((l.unroll none).dropKey).map (·.allowKey false)

/-- An opening bracket, which may begin a key. -/
def openFlow (l : Lexer) (token : Token) : Option Lexer :=
  l.noteKey.map fun l => { l.take 1 token with keys := none :: l.keys, keyAllowed := true }

def closeFlow (l : Lexer) (token : Token) : Option Lexer :=
  l.dropKey.map fun l =>
    { l.take 1 token with
      keys := if l.inFlow then l.keys.drop 1 else l.keys, keyAllowed := false }

/-- A comma within brackets. -/
def comma (l : Lexer) : Option Lexer := l.dropKey.map (fun l => (l.take 1 .flowEntry).allowKey true)

/-- A hyphen in front of an item. -/
def entry (l : Lexer) : Option Lexer :=
  if !l.inFlow && !l.keyAllowed then none
  else
    (l.roll l.cursor.column l.tokens.length .blockSequence).dropKey.map
      (fun l => (l.take 1 .blockEntry).allowKey true)

/-- A question mark in front of a key. -/
def explicitKey (l : Lexer) : Option Lexer :=
  if !l.inFlow && !l.keyAllowed then none
  else
    (l.roll l.cursor.column l.tokens.length .blockMapping).dropKey.map
      (fun l => (l.take 1 .key).allowKey !l.inFlow)

/-- A colon behind a key. -/
def colon (l : Lexer) : Option Lexer :=
  let behindKey (k : KeyStart) : Lexer :=
    let later := l.tokens.length - k.before
    let marked := { l with
      keys := none :: l.keys.drop 1
      tokens := l.tokens.take later ++ Token.key :: l.tokens.drop later }
    ((marked.roll k.column k.before .blockMapping).take 1 .value).allowKey false
  let alone (l : Lexer) : Option Lexer :=
    if l.inFlow then some ((l.take 1 .value).allowKey false)
    else if !l.keyAllowed then none
    else some (((l.roll l.cursor.column l.tokens.length .blockMapping).take 1 .value).allowKey true)
  match l.keys with
  | some k :: outer =>
    if isLive k l.cursor then some (behindKey k)
    else if k.needed then none
    else alone { l with keys := none :: outer }
  | _ => alone l

/-- A token that may begin a key and that a key may not follow at once. -/
def property (l : Lexer) (found : Option (Token × Cursor)) : Option Lexer := do
  let l ← l.noteKey
  let (token, cursor) ← found
  return { l.emit token with cursor, keyAllowed := false }

/-- A scalar that may be a key. -/
def scalar (l : Lexer) (style : ScalarStyle) (found : Option Scanned) : Option Lexer := do
  let l ← l.noteKey
  let found ← found
  return { l.emit (.scalar style (String.ofList found.text)) with
    cursor := found.cursor, keyAllowed := found.newLine }

/-- A scalar with a block header. -/
def block (l : Lexer) (folds : Bool) : Option Lexer := do
  let l ← l.dropKey
  let found ← blockScalar? folds l.least l.cursor
  let style := if folds then ScalarStyle.folded else .literal
  return { l.emit (.scalar style (String.ofList found.text)) with
    cursor := found.cursor, keyAllowed := true }

def beginsPlain (l : Lexer) (c : Char) : Bool :=
  if c = '-' then !(l.cursor.skip 1).peek?.any isBlank
  else if c = '?' || c = ':' then !l.inFlow && !l.cursor.gapAfter 1
  else
    !isGap c && !([',', '[', ']', '{', '}', '#', '&', '*', '!', '|', '>', '\'', '"', '%', '@',
      '\x60'].contains c)

/-- Read the token at the cursor, which stands at a character. -/
def token (l : Lexer) (c : Char) : Option Lexer :=
  let here := l.cursor
  if here.column = 0 && c = '%' then do
    let l ← l.endBlocks
    let (token, cursor) ← directive? (here.skip 1)
    return { l.emit token with cursor }
  else if here.atMarker '-' then l.endBlocks.map (·.take 3 .documentStart)
  else if here.atMarker '.' then l.endBlocks.map (·.take 3 .documentEnd)
  else if c = '[' then l.openFlow .flowSequence
  else if c = '{' then l.openFlow .flowMapping
  else if c = ']' then l.closeFlow .flowSequenceEnd
  else if c = '}' then l.closeFlow .flowMappingEnd
  else if c = ',' then l.comma
  else if c = '-' && here.gapAfter 1 then l.entry
  else if c = '?' && (l.inFlow || here.gapAfter 1) then l.explicitKey
  else if c = ':' && (l.inFlow || here.gapAfter 1) then l.colon
  else if c = '*' then l.property ((name? here).map fun (name, next) => (.reference name, next))
  else if c = '&' then l.property ((name? here).map fun (name, next) => (.anchor name, next))
  else if c = '!' then l.property (tag? l.inFlow here)
  else if c = '|' && !l.inFlow then l.block false
  else if c = '>' && !l.inFlow then l.block true
  else if c = '\'' then l.scalar .quoted (quotedScalar? .single here)
  else if c = '"' then l.scalar .quoted (quotedScalar? .double here)
  else if l.beginsPlain c then l.scalar .plain (plainScalar? l.inFlow l.least here)
  else none

def readAll (l : Lexer) : Nat → Option Lexer
  | 0 => none
  | fuel + 1 =>
    let l := l.passGaps (l.cursor.rest.length + 1)
    let l := l.unroll (some l.cursor.column)
    match l.cursor.peek? with
    | none => (l.unroll none).dropKey
    | some c => (l.token c).bind (fun l => l.readAll fuel)

end Lexer

def tokens? (text : List Char) : Option (List Token) :=
  if text.all isAllowed then
    ((Lexer.start text).readAll (text.length + 1)).map (·.tokens.reverse)
  else none

end CodeSurvey.Yaml
