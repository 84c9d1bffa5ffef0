/-
Matching globs against paths.

A glob consumes the bytes of a path from the left.  All that is kept is which rests of the path
are possible behind the tokens read so far; a star leaves every end of the longest of them.  The
glob matches when nothing may be left.
-/
import CodeSurvey.Glob
import CodeSurvey.Text.Utf8

namespace CodeSurvey

namespace GlobMatching

open Text (utf8Bytes)

def bytesOf (c : Char) : List UInt8 := utf8Bytes (String.singleton c)

def behind (p : UInt8 → Bool) : List UInt8 → Option (List UInt8)
  | [] => none
  | b :: rest => if p b then some rest else none

def behindAll : List UInt8 → List UInt8 → Option (List UInt8)
  | [], path => some path
  | b :: bytes, path => (behind (· == b) path).bind (behindAll bytes)

/-- The byte between components. -/
def slash : UInt8 := 0x2F

def longest : List (List UInt8) → List UInt8
  | [] => []
  | rest :: others =>
    let best := longest others
    if best.length ≤ rest.length then rest else best

/-- Every end of a text, itself and the empty one too. -/
def ends : List UInt8 → List (List UInt8)
  | [] => [[]]
  | b :: rest => (b :: rest) :: ends rest

def componentEnds : List UInt8 → List (List UInt8)
  | [] => []
  | b :: rest => if b = slash then rest :: componentEnds rest else componentEnds rest

/-- The bytes that a range of a class stands for, as spans: the bytes of its first character up
to the first byte of its last character make the middle span, the other bytes stand alone. -/
def byteSpans (range : Char × Char) : List (UInt8 × UInt8) :=
  let firsts := (bytesOf range.1).reverse
  let lasts := bytesOf range.2
  match firsts, lasts with
  | lo :: before, hi :: behind =>
    if range.1 = range.2 then (bytesOf range.1).map (fun b => (b, b))
    else (before.map (fun b => (b, b))) ++ [(lo, hi)] ++ behind.map (fun b => (b, b))
  | _, _ => []

/-- Whether a byte belongs to a class. -/
def inClass (ranges : GlobRanges) (b : UInt8) : Bool :=
  (ranges.flatMap byteSpans).any (fun span => span.1 ≤ b && b ≤ span.2)

/-- Whether branches leave nothing to compare: no token, or only groups of such branches. -/
def isVoid : List GlobToken → Bool
  | [] => true
  | .branches alternatives :: rest => allVoid alternatives && isVoid rest
  | _ :: _ => false
where
  /-- Whether every alternative is void. -/
  allVoid : List (List GlobToken) → Bool
    | [] => true
    | branch :: others => isVoid branch && allVoid others

mutual

/-- The possible rests behind tokens. -/
def behindTokens : List GlobToken → List (List UInt8) → List (List UInt8)
  | [], rests => rests
  | token :: tokens, rests => behindTokens tokens (behindToken token rests)

def behindToken (token : GlobToken) (rests : List (List UInt8)) : List (List UInt8) :=
  match token with
  | .text c => rests.filterMap (behindAll (bytesOf c))
  | .any => rests.filterMap (behind (fun _ => true))
  | .star => if rests.isEmpty then [] else ends (longest rests)
  | .leading => rests ++ componentEnds (longest rests)
  | .trailing =>
    let below := rests.filterMap (behind (· == slash))
    if below.isEmpty then [] else ends (longest below)
  | .between =>
    let below := rests.filterMap (behind (· == slash))
    below ++ componentEnds (longest below)
  | .oneOf negated ranges => rests.filterMap (behind (fun b => inClass ranges b != negated))
  | .branches alternatives =>
    if isVoid.allVoid alternatives then rests else
      (behindBranches alternatives rests).eraseDups

def behindBranches : List (List GlobToken) → List (List UInt8) → List (List UInt8)
  | [], _ => []
  | branch :: others, rests =>
    (if isVoid branch then [] else behindTokens branch rests) ++ behindBranches others rests

end

/-! ## Paths that name no file -/

/-- Whether a token stands for itself. -/
def isText : GlobToken → Bool
  | .text _ => true
  | _ => false

/-- Whether a token is a given character. -/
def isChar (c : Char) : GlobToken → Bool
  | .text d => c == d
  | _ => false

/-- Whether a glob is fixed text behind any beginning, so that it looks at the end of the path as
a whole. -/
def isSuffix (tokens : List GlobToken) : Bool :=
  match tokens with
  | .leading :: .star :: rest => rest.all isText
  | .leading :: rest => rest.all isText && rest.any (isChar '/')
  | .star :: rest => rest.all isText
  | rest => rest.all isText

/-- Whether a glob looks at the name of the file: at the whole of it, or at its extension.  Only
globs that end in a dot are told apart, since no other glob can match a path that ends in `..`. -/
def looksAtName (tokens : List GlobToken) : Bool :=
  tokens.getLast?.any (isChar '.') &&
    (!isSuffix tokens || (tokens.filter isText).length == 1)

def namesNoFile (path : List UInt8) : Bool :=
  ((path.reverse.takeWhile (· != slash)) == utf8Bytes "..")

end GlobMatching

open GlobMatching in
def Glob.isMatch (glob : Glob) (path : String) : Bool :=
  let bytes := Text.utf8Bytes path
  match glob.tokens with
  | [.leading] => true
  | tokens =>
    (behindTokens tokens [bytes]).any List.isEmpty && !(namesNoFile bytes && looksAtName tokens)

end CodeSurvey
