/-
Patterns over characters, and all the ways they match.

A pattern is tried at a place in a text.  Its runs are listed in order of preference: the first
alternative before the second, a greedy repetition from its longest run down, a reluctant one
from its shortest up.  The first run is the match, and the groups it passed through are its
captures.  Every repetition stops at a round that takes no character, so the list is finite.
-/
import CodeSurvey.Text.Word
import CodeSurvey.Text.Chars

namespace CodeSurvey

/-- A place in a text: how far in, the character just before, and what follows. -/
structure Place where
  offset : Nat
  before : Option Char
  rest : List Char
deriving DecidableEq, Repr

namespace Place

def start (text : List Char) : Place := ⟨0, none, text⟩

/-- The place after the next character, if that belongs to the class. -/
def step? (p : Char → Bool) (place : Place) : Option Place :=
  match place.rest with
  | c :: rest => if p c then some ⟨place.offset + 1, some c, rest⟩ else none
  | [] => none

/-- Whether exactly one of the two neighbours of a place is a word character. -/
def atWordEdge (place : Place) : Bool :=
  place.before.any Text.isWordChar != place.rest.head?.any Text.isWordChar

end Place

/-- A stretch of text between two places. -/
structure Span where
  start : Place
  stop : Place
deriving DecidableEq, Repr

def Span.text (s : Span) : List Char :=
  s.start.rest.take (s.stop.offset - s.start.offset)

/-- A pattern.  Classes are predicates on characters. -/
inductive Pattern where
  /-- Matches without taking a character. -/
  | empty
  /-- One character of a class. -/
  | one (p : Char → Bool)
  /-- As many characters of a class as possible, then fewer. -/
  | many (p : Char → Bool)
  /-- As few characters of a class as possible, then more. -/
  | few (p : Char → Bool)
  | seq (a b : Pattern)
  /-- The first pattern, or else the second. -/
  | either (a b : Pattern)
  /-- As many rounds as possible, then fewer. -/
  | rounds (a : Pattern)
  /-- Remember what the pattern matched under a number. -/
  | group (n : Nat) (a : Pattern)
  /-- Between a word character and one that is none. -/
  | wordEdge
  | textStart
  | textEnd

/-- The groups passed through so far, the latest first. -/
abbrev Groups := List (Nat × Span)

namespace Pattern

instance : Append Pattern := ⟨seq⟩

/-- One class character or more. -/
def some1 (p : Char → Bool) : Pattern := one p ++ many p

/-- The pattern, or nothing. -/
def optional (a : Pattern) : Pattern := either a empty

def rounds1 (a : Pattern) : Pattern := a ++ rounds a

/-- One given character. -/
def char (c : Char) : Pattern := one (· == c)

/-- Any character but a newline. -/
def notNewline (c : Char) : Bool := c != '\n'

/-- A fixed text. -/
def literal (text : String) : Pattern :=
  text.toList.foldr (fun c rest => seq (char c) rest) empty

/-- A fixed ASCII text in either case; `text` is given in lower case. -/
def literalAnyCase (text : String) : Pattern :=
  text.toList.foldr (fun c rest => seq (one (fun d => d.toLower == c)) rest) empty

/-- One of several fixed texts, the earlier first. -/
def oneOf : List String → Pattern
  | [] => one (fun _ => false)
  | [text] => literal text
  | text :: rest => either (literal text) (oneOf rest)

/-- An identifier: an ASCII letter or underscore, then word characters. -/
def identifier : Pattern := one Text.isNameStart ++ many Text.isWordChar

def blanks : Pattern := many Text.isBlank

def blanks1 : Pattern := some1 Text.isBlank

/-- The places that a run of class characters may end at, the farthest first; `passed` holds the
places before, latest first. -/
def runEnds (p : Char → Bool) : List Char → Place → List Place → List Place
  | [], _, passed => passed
  | c :: rest, place, passed =>
    if p c then
      let next : Place := ⟨place.offset + 1, some c, rest⟩
      runEnds p rest next (next :: passed)
    else passed

/-- The places a run of class characters from `place` may end at, the farthest first. -/
def runsOf (p : Char → Bool) (place : Place) : List Place :=
  runEnds p place.rest place [place]

/-- All rounds of a step, at most `fuel` of them, the longest way first. -/
def roundsOf (step : Place × Groups → List (Place × Groups)) :
    Nat → Place × Groups → List (Place × Groups)
  | 0, here => [here]
  | fuel + 1, here =>
    ((step here).filter (fun next => here.1.offset < next.1.offset)).flatMap
      (roundsOf step fuel) ++ [here]

/-- Every way a pattern matches at a place, in order of preference, with the place behind it. -/
def runs : Pattern → Place × Groups → List (Place × Groups)
  | .empty, here => [here]
  | .one p, (place, groups) => (place.step? p).toList.map (·, groups)
  | .many p, (place, groups) => (runsOf p place).map (·, groups)
  | .few p, (place, groups) => (runsOf p place).reverse.map (·, groups)
  | .seq a b, here => (a.runs here).flatMap b.runs
  | .either a b, here => a.runs here ++ b.runs here
  | .rounds a, here => roundsOf a.runs here.1.rest.length here
  | .group n a, (place, groups) =>
    (a.runs (place, groups)).map (fun (stop, inner) => (stop, (n, ⟨place, stop⟩) :: inner))
  | .wordEdge, here => if here.1.atWordEdge then [here] else []
  | .textStart, here => if here.1.offset = 0 then [here] else []
  | .textEnd, here => if here.1.rest.isEmpty then [here] else []

end Pattern

end CodeSurvey
