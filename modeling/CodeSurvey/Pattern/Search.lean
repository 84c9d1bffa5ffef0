/-
Searching a text for a pattern.

The first place from the left where a pattern matches decides; further matches are looked for
behind the one found, so matches never overlap.
-/
import CodeSurvey.Pattern.Basic

namespace CodeSurvey

/-- A match: the span taken and the groups passed through. -/
structure Match where
  span : Span
  groups : Groups
deriving DecidableEq, Repr

namespace Match

/-- Offset of the first character. -/
def start (m : Match) : Nat := m.span.start.offset

/-- Offset just behind the last character. -/
def stop (m : Match) : Nat := m.span.stop.offset

/-- The characters matched. -/
def text (m : Match) : List Char := m.span.text

/-- What follows the match in the text. -/
def rest (m : Match) : List Char := m.span.stop.rest

/-- The span of a group, if the match passed through it; of several passes the last counts. -/
def group? (m : Match) (n : Nat) : Option Span :=
  (m.groups.find? (fun g => g.1 == n)).map (·.2)

/-- The text of a group, empty if the match did not pass through it. -/
def groupText (m : Match) (n : Nat) : List Char :=
  match m.group? n with
  | some span => span.text
  | none => []

end Match

namespace Pattern

def matchAt? (pattern : Pattern) (place : Place) : Option Match :=
  (pattern.runs (place, [])).head?.map (fun (stop, groups) => ⟨⟨place, stop⟩, groups⟩)

/-- The leftmost match from a place on; the last argument is the text that follows it. -/
def findFrom (pattern : Pattern) (offset : Nat) (before : Option Char) :
    List Char → Option Match
  | [] => pattern.matchAt? ⟨offset, before, []⟩
  | c :: rest =>
    match pattern.matchAt? ⟨offset, before, c :: rest⟩ with
    | some m => some m
    | none => findFrom pattern (offset + 1) (some c) rest

def find? (pattern : Pattern) (text : List Char) : Option Match :=
  pattern.findFrom 0 none text

/-- Whether a pattern matches somewhere in a text. -/
def occurs (pattern : Pattern) (text : List Char) : Bool :=
  (pattern.find? text).isSome

/-- The matches from a place on; `skip` characters still belong to the match found last. -/
def findAllFrom (pattern : Pattern) (skip offset : Nat) (before : Option Char) :
    List Char → List Match
  | [] => []
  | c :: rest =>
    if skip > 0 then findAllFrom pattern (skip - 1) (offset + 1) (some c) rest
    else
      match pattern.matchAt? ⟨offset, before, c :: rest⟩ with
      | some m =>
        m :: findAllFrom pattern (m.stop - offset - 1) (offset + 1) (some c) rest
      | none => findAllFrom pattern 0 (offset + 1) (some c) rest

/-- All matches in a text from left to right, none overlapping another. -/
def findAll (pattern : Pattern) (text : List Char) : List Match :=
  pattern.findAllFrom 0 0 none text

def piecesBetween (text : List Char) (from' : Nat) : List Match → List (List Char)
  | [] => [text.drop from']
  | m :: rest => (text.drop from').take (m.start - from') :: piecesBetween text m.stop rest

/-- Cut a text at every match of a pattern. -/
def split (pattern : Pattern) (text : List Char) : List (List Char) :=
  piecesBetween text 0 (pattern.findAll text)

end Pattern

end CodeSurvey
