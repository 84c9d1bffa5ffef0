/-
Glob patterns for paths.

A glob is a list of tokens.  A path is compared as bytes, so `?` takes one byte and a class the
bytes of its ends; a star takes any bytes, slashes too.  Two stars that fill a whole component
take any number of components.
-/

namespace CodeSurvey

/-- The characters that a class names, each range by its ends. -/
abbrev GlobRanges := List (Char × Char)

/-- One token of a glob. -/
inductive GlobToken where
  /-- A character that stands for itself. -/
  | text (c : Char)
  /-- Any one byte. -/
  | any
  /-- Any bytes. -/
  | star
  /-- At the start: any number of leading components. -/
  | leading
  /-- At the end: a slash and anything below it. -/
  | trailing
  /-- In between: a slash, or any number of components between two slashes. -/
  | between
  /-- A byte that belongs to the class, or does not. -/
  | oneOf (negated : Bool) (ranges : GlobRanges)
  /-- One of several branches. -/
  | branches (alternatives : List (List GlobToken))
deriving Repr, Inhabited

/-- A glob. -/
structure Glob where
  tokens : List GlobToken
deriving Repr, Inhabited

/-- Why a text is no glob. -/
inductive GlobFault where
  | unclosedClass
  /-- The range begins above its end. -/
  | invalidRange (first last : Char)
  | unopenedBranches
  | unclosedBranches
  | danglingEscape
deriving DecidableEq, Repr

/-- The text shown for a fault. -/
def GlobFault.message : GlobFault → String
  | unclosedClass => "unclosed character class; missing ']'"
  | invalidRange first last =>
    "invalid range; '" ++ String.singleton first ++ "' > '" ++ String.singleton last ++ "'"
  | unopenedBranches =>
    "unopened alternate group; missing '\x7b' (maybe escape '\x7d' with '[\x7d]'?)"
  | unclosedBranches =>
    "unclosed alternate group; missing '\x7d' (maybe escape '\x7b' with '[\x7b]'?)"
  | danglingEscape => "dangling '\\'"

/-- A text that is no glob, and why. -/
structure GlobError where
  glob : String
  fault : GlobFault
deriving DecidableEq, Repr

/-- The text shown for a text that is no glob. -/
def GlobError.message (e : GlobError) : String :=
  "error parsing glob '" ++ e.glob ++ "': " ++ e.fault.message

end CodeSurvey
