/-
The scalars of a YAML text.

A scalar may go on over several lines: in plain and quoted scalars one break counts as a space and
further breaks as themselves; a block scalar keeps its lines or folds them.  Each reader takes the
number of steps it may make, which the length of the text bounds.
-/
import CodeSurvey.Yaml.Cursor

namespace CodeSurvey.Yaml

/-! ## Blanks and breaks within a scalar -/

/-- Blanks and breaks passed within a scalar. -/
structure Gap where
  /-- The blanks before any break. -/
  blanks : List Char
  /-- The breaks in order. -/
  breaks : List Char
  /-- Whether blanks no longer count. -/
  broken : Bool
  cursor : Cursor
deriving Repr

/-- Pass blanks and breaks.  Behind a break, no tab may stand before the least column. -/
def Gap.extend (least : Nat) : Nat → Gap → Option Gap
  | 0, _ => none
  | fuel + 1, g =>
    match g.cursor.takeBreak? with
    | some (b, cursor) =>
      Gap.extend least fuel { blanks := [], breaks := g.breaks ++ [b], broken := true, cursor }
    | none =>
      match g.cursor.peek? with
      | none => some g
      | some c =>
        if !isBlank c then some g
        else if g.broken then
          if c = '\t' && g.cursor.column < least then none
          else Gap.extend least fuel { g with cursor := g.cursor.skip 1 }
        else Gap.extend least fuel { g with blanks := g.blanks ++ [c], cursor := g.cursor.skip 1 }

def gapAt (least : Nat) (broken : Bool) (c : Cursor) : Option Gap :=
  Gap.extend least (c.rest.length + 1) ⟨[], [], broken, c⟩

/-- What a gap puts into the text: its blanks, or one space for one break, or all breaks but the
first. -/
def Gap.folded (g : Gap) : List Char :=
  if !g.broken then g.blanks
  else
    match g.breaks with
    | ['\n'] => [' ']
    | '\n' :: more => more
    | breaks => breaks

/-! ## Plain scalars -/

/-- The marks that end a plain scalar within brackets. -/
def isFlowMark (c : Char) : Bool := c == ',' || c == '[' || c == ']' || c == '{' || c == '}'

/-- The run of text up to a gap or to what ends a plain scalar.  Within brackets a colon must not
touch a mark. -/
def plainRun? (inFlow : Bool) : List Char → Option (List Char)
  | [] => some []
  | c :: rest =>
    if isGap c then some []
    else if c = ':' && (rest.isEmpty || rest.head?.any isGap) then some []
    else if inFlow && c = ':' && rest.head?.any (fun d => isFlowMark d || d == '?') then none
    else if inFlow && isFlowMark c then some []
    else (plainRun? inFlow rest).map (c :: ·)

/-- A scalar read, and the cursor behind it. -/
structure Scanned where
  text : List Char
  cursor : Cursor
  /-- Whether a new line has begun behind the text. -/
  newLine : Bool
deriving Repr

/-- Read on a plain scalar.  In a block, a line indented less than `least` is not part of it. -/
def plainFrom (inFlow : Bool) (least : Nat) (text : List Char) (gap : Gap) : Nat → Option Scanned
  | 0 => none
  | fuel + 1 =>
    let ended : Scanned := ⟨text, gap.cursor, gap.broken⟩
    if gap.cursor.atDocumentEdge || gap.cursor.looksAt '#' then some ended
    else
      match plainRun? inFlow gap.cursor.rest with
      | none => none
      | some [] => some ended
      | some run =>
        match gapAt least false (gap.cursor.skip run.length) with
        | none => none
        | some next =>
          let text := text ++ gap.folded ++ run
          if next.blanks.isEmpty && !next.broken then some ⟨text, next.cursor, false⟩
          else if !inFlow && next.cursor.column < least then
            some ⟨text, next.cursor, next.broken⟩
          else plainFrom inFlow least text next fuel

def plainScalar? (inFlow : Bool) (least : Nat) (c : Cursor) : Option Scanned :=
  plainFrom inFlow least [] ⟨[], [], false, c⟩ (c.rest.length + 1)

/-! ## Quoted scalars -/

/-- The value of hexadecimal digits. -/
def hexNumber? (digits : List Char) : Option Nat :=
  digits.foldlM (fun n c =>
    if c.isDigit then some (16 * n + (c.toNat - '0'.toNat))
    else if 'a' ≤ c && c ≤ 'f' then some (16 * n + (c.toNat - 'a'.toNat + 10))
    else if 'A' ≤ c && c ≤ 'F' then some (16 * n + (c.toNat - 'A'.toNat + 10))
    else none) 0

/-- The character that an escape of one letter stands for. -/
def escapeValue? (c : Char) : Option Char :=
  match c with
  | '0' => some '\x00'
  | 'a' => some '\x07'
  | 'b' => some '\x08'
  | 't' => some '\t'
  | '\t' => some '\t'
  | 'n' => some '\n'
  | 'v' => some '\x0b'
  | 'f' => some '\x0c'
  | 'r' => some '\r'
  | 'e' => some '\x1b'
  | ' ' => some ' '
  | '"' => some '"'
  | '/' => some '/'
  | '\\' => some '\\'
  | 'N' => some '\x85'
  | '_' => some '\xa0'
  | 'L' => some '\u2028'
  | 'P' => some '\u2029'
  | _ => none

def escapeDigits? (c : Char) : Option Nat :=
  match c with
  | 'x' => some 2
  | 'u' => some 4
  | 'U' => some 8
  | _ => none

/-- The character of an escape behind its backslash, and how many characters the escape has. -/
def escapeAt? : List Char → Option (Char × Nat)
  | [] => none
  | c :: rest =>
    match escapeValue? c with
    | some d => some (d, 1)
    | none =>
      (escapeDigits? c).bind fun count =>
        if rest.length < count then none
        else
          (hexNumber? (rest.take count)).bind fun n =>
            if (0xD800 ≤ n && n ≤ 0xDFFF) || 0x10FFFF < n then none
            else some (Char.ofNat n, count + 1)

/-- The kinds of quotation marks. -/
inductive Quote where
  | single
  | double
deriving DecidableEq, Repr

def Quote.mark : Quote → Char
  | single => '\''
  | double => '"'

/-- Read on a quoted scalar behind its opening mark, up to the closing one. -/
def quotedFrom (quote : Quote) (text : List Char) (c : Cursor) : Nat → Option Scanned
  | 0 => none
  | fuel + 1 =>
    if c.atDocumentEdge then none
    else
      match c.rest with
      | [] => none
      | d :: rest =>
        if isGap d then
          (gapAt 0 false c).bind fun gap => quotedFrom quote (text ++ gap.folded) gap.cursor fuel
        else if d = quote.mark then
          if quote = .single && rest.head? == some quote.mark then
            quotedFrom quote (text ++ [quote.mark]) (c.skip 2) fuel
          else some ⟨text, c.skip 1, false⟩
        else if quote = .double && d = '\\' then
          match (c.skip 1).takeBreak? with
          | some (_, next) =>
            (gapAt 0 true next).bind fun gap =>
              quotedFrom quote (text ++ gap.breaks) gap.cursor fuel
          | none =>
            (escapeAt? rest).bind fun (e, count) =>
              quotedFrom quote (text ++ [e]) (c.skip (count + 1)) fuel
        else quotedFrom quote (text ++ [d]) (c.skip 1) fuel

def quotedScalar? (quote : Quote) (c : Cursor) : Option Scanned :=
  quotedFrom quote [] (c.skip 1) (c.rest.length + 1)

/-! ## Block scalars -/

/-- What becomes of the breaks behind the last line. -/
inductive Chomping where
  | strip
  /-- One break is kept. -/
  | clip
  | keep
deriving DecidableEq, Repr

/-- The header of a block scalar. -/
structure BlockHeader where
  chomping : Chomping
  /-- How much deeper than its parent the scalar is indented, if that is said. -/
  increment : Option Nat
deriving Repr

/-- The chomping that a sign stands for. -/
def chompingOf? (c : Char) : Option Chomping :=
  match c with
  | '+' => some .keep
  | '-' => some .strip
  | _ => none

/-- The increment that a digit stands for. -/
def incrementOf? (c : Char) : Option Nat :=
  if '1' ≤ c && c ≤ '9' then some (c.toNat - '0'.toNat) else none

/-- The header of a block scalar at a cursor: a sign and a digit in either order. -/
def blockHeader (c : Cursor) : BlockHeader × Cursor :=
  match c.peek? with
  | none => (⟨.clip, none⟩, c)
  | some d =>
    match chompingOf? d, incrementOf? d with
    | some chomping, _ =>
      match (c.skip 1).peek?.bind incrementOf? with
      | some n => (⟨chomping, some n⟩, c.skip 2)
      | none => (⟨chomping, none⟩, c.skip 1)
    | none, some n =>
      match (c.skip 1).peek?.bind chompingOf? with
      | some chomping => (⟨chomping, some n⟩, c.skip 2)
      | none => (⟨.clip, some n⟩, c.skip 1)
    | none, none => (⟨.clip, none⟩, c)

/-- The empty lines before a line of a block scalar. -/
structure EmptyLines where
  /-- How far the scalar is indented. -/
  indent : Nat
  breaks : List Char
  cursor : Cursor
deriving Repr

/-- Pass empty lines and the indentation of the next line.  Where the indentation is not known yet,
it is that of the deepest of these lines, but at least `least`. -/
def emptyLines (indent : Option Nat) (least deepest : Nat) (breaks : List Char) (c : Cursor) :
    Nat → Option EmptyLines
  | 0 => none
  | fuel + 1 =>
    let spaces := (c.rest.takeWhile (· == ' ')).length
    let c := c.skip (match indent with | some n => min spaces (n - c.column) | none => spaces)
    let deepest := max deepest c.column
    if c.looksAt '\t' && indent.all (c.column < ·) then none
    else
      match c.takeBreak? with
      | some (b, next) => emptyLines indent least deepest (breaks ++ [b]) next fuel
      | none => some ⟨indent.getD (max deepest (max least 1)), breaks, c⟩

/-- A block scalar being read. -/
structure BlockState where
  text : List Char
  /-- The break behind the last line, if there is one. -/
  last : List Char
  /-- The breaks of the empty lines behind it. -/
  more : List Char
  /-- Whether the last line begins with a blank. -/
  blankStart : Bool
  cursor : Cursor
deriving Repr

/-- Read on a block scalar line by line. -/
def blockLines (folds : Bool) (indent : Nat) (s : BlockState) : Nat → Option BlockState
  | 0 => none
  | fuel + 1 =>
    if s.cursor.column != indent || s.cursor.rest.isEmpty then some s
    else
      let blankStart := s.cursor.peek?.any isBlank
      let joint :=
        if folds && s.last == ['\n'] && !s.blankStart && !blankStart then
          if s.more.isEmpty then [' '] else s.more
        else s.last ++ s.more
      let line := s.cursor.rest.takeWhile (fun d => !isBreak d)
      let behind := s.cursor.skip line.length
      let (last, next) :=
        match behind.takeBreak? with
        | some (b, next) => ([b], next)
        | none => ([], behind)
      (emptyLines (some indent) 0 0 [] next (next.rest.length + 1)).bind fun found =>
        blockLines folds indent
          ⟨s.text ++ joint ++ line, last, found.breaks, blankStart, found.cursor⟩ fuel

/-- The block scalar whose mark is at a cursor; `least` is one more than the indentation around. -/
def blockScalar? (folds : Bool) (least : Nat) (c : Cursor) : Option Scanned :=
  let (header, c) := blockHeader (c.skip 1)
  let indent := header.increment.map (least - 1 + ·)
  c.endOfLine?.bind fun c =>
    (emptyLines indent least 0 [] c (c.rest.length + 1)).bind fun found =>
      (blockLines folds found.indent ⟨[], [], found.breaks, false, found.cursor⟩
        (c.rest.length + 1)).map fun s =>
        let tail :=
          match header.chomping with
          | .strip => []
          | .clip => s.last
          | .keep => s.last ++ s.more
        ⟨s.text ++ tail, s.cursor, true⟩

end CodeSurvey.Yaml
