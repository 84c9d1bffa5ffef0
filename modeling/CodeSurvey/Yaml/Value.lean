/-
YAML values and documents.

A value is a scalar, a sequence, a mapping, or a reference to an anchored value of its document.
What a scalar means is left to whoever decodes it, so it keeps its text, its tag and its style.
-/

namespace CodeSurvey

/-- How a scalar is written. -/
inductive ScalarStyle where
  /-- Without quotes or a block header. -/
  | plain
  | quoted
  /-- With a block header, keeping its lines. -/
  | literal
  /-- With a block header, joining its lines. -/
  | folded
deriving DecidableEq, Repr

/-- A YAML value. -/
inductive Yaml where
  | scalar (style : ScalarStyle) (tag : Option String) (text : String)
  | sequence (items : List Yaml)
  /-- The members in the order they were written, repeats included. -/
  | mapping (members : List (Yaml × Yaml))
  /-- The anchored value of a number, which may hold this very reference. -/
  | reference (number : Nat)
deriving Repr, Inhabited

namespace Yaml

/-- The scalar that stands where nothing was written. -/
def nothing : Yaml := .scalar .plain none ""

/-- What a tag written with two exclamation marks begins with. -/
def coreTags : String := "tag:yaml.org,2002:"

/-- A document: one value, and what its references stand for. -/
structure Document where
  root : Yaml
  /-- The anchored values and their numbers, the anchor that begins last first. -/
  anchored : List (Nat × Yaml)
deriving Repr, Inhabited

/-- A value, or what it refers to: of the anchored values of one number, the one that begins
last. -/
def Document.follow (d : Document) : Yaml → Yaml
  | .reference number => (d.anchored.lookup number).getD nothing
  | value => value

end Yaml

end CodeSurvey
