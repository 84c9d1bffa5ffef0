/-
# Source texts by their segments

What a mask is meant to do is said here without the machine that does it.  A source text is laid
out segment by segment: code, literals, comments, line breaks.  The layout marks each character as
kept or hidden (`Glyph`), so the same layout gives the lines as they are written and the lines as
they are to be shown, one character for one character.

Not every sequence of segments is a source text.  `Segment.Fits` bars what would be read as another
segment: a quotation mark within code, a slash that divides where a regular expression would begin,
two neighbours that together open a comment.  Where a slash begins a regular expression is decided
by the last character shown on the line that is not blank (`lastInk`).
-/
import CodeSurvey.Masking

namespace CodeSurvey.Masking

open Text

/-! ## Glyphs -/

/-- A character of a source text, and whether a mask lets it show. -/
inductive Glyph where
  | kept (c : Char)
  | hidden (c : Char)
deriving DecidableEq, Repr

def Glyph.char : Glyph → Char
  | .kept c | .hidden c => c

/-- What stands in the masked text. -/
def Glyph.shown : Glyph → Char
  | .kept c => c
  | .hidden _ => ' '

/-- A layout: glyphs, and `none` where a line ends. -/
abbrev Layout := List (Option Glyph)

def kept (text : List Char) : Layout := text.map (fun c => some (.kept c))

def hidden (text : List Char) : Layout := text.map (fun c => some (.hidden c))

/-- The lines of a text with marked line ends. -/
def cut {α : Type} : List (Option α) → List (List α)
  | [] => [[]]
  | none :: rest => [] :: cut rest
  | some a :: rest => (cut rest).modifyHead (a :: ·)

/-- The next character on the same line. -/
def nextOn (rest : List (Option Char)) : Option Char := rest.head?.join

/-- The last character shown on the line that is not blank, where `prev` was it before. -/
def lastInk (prev : Option Char) (layout : Layout) : Option Char :=
  layout.foldl (fun last glyph =>
    match glyph with
    | none => none
    | some g => if isBlank g.shown then last else some g.shown) prev

/-! ## Segments -/

/-- A character within a literal, alone or escaped by a backslash. -/
inductive Piece where
  | plain (c : Char)
  | escaped (c : Char)
deriving DecidableEq, Repr

def Piece.chars : Piece → List Char
  | .plain c => [c]
  | .escaped c => ['\\', c]

/-- A piece that ends nothing: a plain character is no backslash and none of the stops. -/
def Piece.Free (stops : List Char) : Piece → Prop
  | .plain c => c ≠ '\\' ∧ c ∉ stops
  | .escaped _ => True

instance (stops : List Char) : DecidablePred (Piece.Free stops)
  | .plain c => inferInstanceAs (Decidable (c ≠ '\\' ∧ c ∉ stops))
  | .escaped _ => .isTrue trivial

/-- The text of a literal between its delimiters. -/
def bodyText (body : List Piece) : List Char := body.flatMap Piece.chars

/-- A part of a regular expression. -/
inductive RegexPart where
  | piece (p : Piece)
  /-- A character class, which may hold slashes. -/
  | charClass (body : List Piece)
deriving DecidableEq, Repr

def RegexPart.chars : RegexPart → List Char
  | .piece p => p.chars
  | .charClass body => '[' :: (bodyText body ++ [']'])

def RegexPart.Free : RegexPart → Prop
  | .piece p => p.Free ['/', '[']
  | .charClass body => ∀ p ∈ body, p.Free [']']

instance : DecidablePred RegexPart.Free
  | .piece p => inferInstanceAs (Decidable (p.Free ['/', '[']))
  | .charClass body => inferInstanceAs (Decidable (∀ p ∈ body, p.Free [']']))

def regexText (body : List RegexPart) : List Char := body.flatMap RegexPart.chars

/-- What a source text is made of. -/
inductive Segment where
  | code (text : List Char)
  /-- A slash that divides. -/
  | division
  | string (quote : Char) (body : List Piece)
  | regex (body : List RegexPart)
  /-- A block comment: what stands on its first line, and on each further line. -/
  | block (first : List Char) (more : List (List Char))
  /-- A string without its closing mark; a backslash may be the last character of the line. -/
  | openString (quote : Char) (body : List Piece) (backslash : Bool)
  | lineComment (text : List Char)
  /-- A block comment that the text ends in. -/
  | openBlock (first : List Char) (more : List (List Char))
  | lineBreak
deriving DecidableEq, Repr

/-- What a line comment begins with. -/
def commentOpener : CommentStyle → List Char
  | .hash => ['#']
  | .slashes => ['/', '/']

def furtherLines (more : List (List Char)) : Layout :=
  more.flatMap (fun line => none :: hidden line)

def blockLines (first : List Char) (more : List (List Char)) : Layout :=
  hidden ['/', '*'] ++ hidden first ++ furtherLines more

def Segment.layout (style : CommentStyle) : Segment → Layout
  | .code text => kept text
  | .division => kept ['/']
  | .string quote body => kept [quote] ++ hidden (bodyText body) ++ kept [quote]
  | .regex body => kept ['/'] ++ hidden (regexText body) ++ kept ['/']
  | .block first more => blockLines first more ++ hidden ['*', '/']
  | .openString quote body backslash =>
    kept [quote] ++ hidden (bodyText body ++ if backslash then ['\\'] else [])
  | .lineComment text => hidden (commentOpener style ++ text)
  | .openBlock first more => blockLines first more
  | .lineBreak => [none]

def layoutOf (style : CommentStyle) (segments : List Segment) : Layout :=
  segments.flatMap (Segment.layout style)

def Layout.text (layout : Layout) : List (Option Char) := layout.map (Option.map Glyph.char)

/-- The masked text of a layout, line ends marked. -/
def Layout.shown (layout : Layout) : List (Option Char) := layout.map (Option.map Glyph.shown)

/-! ## Segments that fit -/

/-- A character that is code by itself: no quotation mark, and not of a comment opener.  So where
two slashes open a comment, a slash that divides is a segment of its own. -/
def IsCode (style : CommentStyle) (c : Char) : Prop :=
  isQuote style c = false ∧ c ∉ commentOpener style

/-- The lines of a block comment do not close it. -/
def IsUnclosed (first : List Char) (more : List (List Char)) : Prop :=
  ∀ line ∈ first :: more, occursIn ['*', '/'] line = false

/-- Whether a segment stands for itself, behind a last character shown and in front of a text. -/
def Segment.Fits (style : CommentStyle) (prev : Option Char) (rest : List (Option Char)) :
    Segment → Prop
  | .code text => ∀ c ∈ text, IsCode style c
  | .division =>
    style = .slashes ∧ regexMayFollow prev = false ∧ nextOn rest ∉ [some '/', some '*']
  | .string quote body => isQuote style quote = true ∧ ∀ p ∈ body, p.Free [quote]
  | .regex body =>
    style = .slashes ∧ regexMayFollow prev = true ∧ (∀ p ∈ body, p.Free) ∧
      (regexText body).head? ∉ [none, some '/', some '*']
  | .block first more => style = .slashes ∧ IsUnclosed first more
  | .openString quote body _ =>
    isQuote style quote = true ∧ (∀ p ∈ body, p.Free [quote]) ∧ nextOn rest = none
  | .lineComment _ => nextOn rest = none
  | .openBlock first more => style = .slashes ∧ IsUnclosed first more ∧ rest = []
  | .lineBreak => True

def WellFormed (style : CommentStyle) (prev : Option Char) : List Segment → Prop
  | [] => True
  | s :: rest =>
    s.Fits style prev (layoutOf style rest).text ∧
      WellFormed style (lastInk prev (s.layout style)) rest

instance (style : CommentStyle) (c : Char) : Decidable (IsCode style c) :=
  inferInstanceAs (Decidable (isQuote style c = false ∧ c ∉ commentOpener style))

instance (first : List Char) (more : List (List Char)) : Decidable (IsUnclosed first more) :=
  inferInstanceAs (Decidable (∀ line ∈ first :: more, occursIn ['*', '/'] line = false))

instance (style : CommentStyle) (prev : Option Char) (rest : List (Option Char)) :
    DecidablePred (Segment.Fits style prev rest)
  | .code text => List.decidableBAll (IsCode style) text
  | .division => inferInstanceAs (Decidable (_ ∧ _ ∧ nextOn rest ∉ [some '/', some '*']))
  | .string quote body =>
    inferInstanceAs (Decidable (isQuote style quote = true ∧ ∀ p ∈ body, p.Free [quote]))
  | .regex body =>
    inferInstanceAs (Decidable (style = .slashes ∧ regexMayFollow prev = true ∧
      (∀ p ∈ body, p.Free) ∧ (regexText body).head? ∉ [none, some '/', some '*']))
  | .block first more => inferInstanceAs (Decidable (style = .slashes ∧ IsUnclosed first more))
  | .openString quote body _ =>
    inferInstanceAs (Decidable (isQuote style quote = true ∧ (∀ p ∈ body, p.Free [quote]) ∧
      nextOn rest = none))
  | .lineComment _ => inferInstanceAs (Decidable (nextOn rest = none))
  | .openBlock first more =>
    inferInstanceAs (Decidable (style = .slashes ∧ IsUnclosed first more ∧ rest = []))
  | .lineBreak => .isTrue trivial

instance decidableWellFormed (style : CommentStyle) :
    (prev : Option Char) → (segments : List Segment) → Decidable (WellFormed style prev segments)
  | _, [] => .isTrue trivial
  | prev, s :: rest =>
    have := decidableWellFormed style (lastInk prev (s.layout style)) rest
    inferInstanceAs (Decidable (_ ∧ _))

def pageOf (style : CommentStyle) (segments : List Segment) : List (List Glyph) :=
  cut (layoutOf style segments)

end CodeSurvey.Masking
