/-
Decoding the values of a YAML document.

A plain scalar is a number or null by how it is spelled; a tag may forbid null.  Where a
collection is wanted, the empty plain scalar counts as an empty one.  A reference decodes as what it
refers to.
-/
import CodeSurvey.Text.Chars
import CodeSurvey.Yaml.Value

namespace CodeSurvey.Yaml

def nullSpellings : List String := ["null", "Null", "NULL", "~"]

def digitValue (c : Char) : Nat :=
  if c.isDigit then c.toNat - '0'.toNat else c.toLower.toNat - 'a'.toNat + 10

def isDigitTo (base : Nat) (c : Char) : Bool :=
  (c.isDigit || ('a' ≤ c.toLower && c.toLower ≤ 'f')) && digitValue c < base

def digits? (base : Nat) (text : List Char) : Option Nat :=
  if !text.isEmpty && text.all (isDigitTo base) then
    some (text.foldl (fun n c => base * n + digitValue c) 0)
  else none

/-- The digits of a number without sign, and their base.  A zero leads others only in the prefixes
of the bases 16, 8 and 2. -/
def magnitude? : List Char → Option Nat
  | '0' :: 'x' :: rest => digits? 16 rest
  | '0' :: 'o' :: rest => digits? 8 rest
  | '0' :: 'b' :: rest => digits? 2 rest
  | ['0'] => some 0
  | '0' :: _ => none
  | text => digits? 10 text

/-- The natural number below `bound` that a scalar spells, with or without a plus sign. -/
def spelledNat? (bound : Nat) (text : String) : Option Nat :=
  let number :=
    match text.toList with
    | '+' :: rest => magnitude? rest
    | rest => magnitude? rest
  number.bind (fun n => if n < bound then some n else none)

/-- Whether a scalar may spell a number: a plain one whatever its tag, a literal one with the tag
of integers. -/
def maySpell : ScalarStyle → Option String → Bool
  | .plain, _ => true
  | .literal, tag => tag == some (coreTags ++ "int")
  | _, _ => false

def isNothing : Yaml → Bool
  | .scalar style _ text => style = .plain && text.isEmpty
  | _ => false

namespace Document

def natBelow? (d : Document) (bound : Nat) (value : Yaml) : Option Nat :=
  match d.follow value with
  | .scalar style tag text => if maySpell style tag then spelledNat? bound text else none
  | _ => none

def text? (d : Document) (value : Yaml) : Option String :=
  match d.follow value with
  | .scalar _ _ text => some text
  | _ => none

def items? (d : Document) (value : Yaml) : Option (List Yaml) :=
  match d.follow value with
  | .sequence items => some items
  | value => if value.isNothing then some [] else none

/-- The members of a mapping whose keys are scalars. -/
def members? (d : Document) (value : Yaml) : Option (List (String × Yaml)) :=
  match d.follow value with
  | .mapping members => members.mapM (fun (key, value) => (d.text? key).map (·, value))
  | value => if value.isNothing then some [] else none

/-- A list whose items are all scalars. -/
def texts? (d : Document) (value : Yaml) : Option (List String) :=
  (d.items? value).bind (·.mapM d.text?)

/-- A value, or nothing for null. -/
def nullable? {α : Type} (d : Document) (decode : Yaml → Option α) (value : Yaml) :
    Option (Option α) :=
  match d.follow value with
  | .scalar .plain tag text =>
    match tag with
    | some tag =>
      if tag == coreTags ++ "null" then
        if nullSpellings.contains text then some none else none
      else (decode value).map some
    | none =>
      if text.isEmpty || nullSpellings.contains text then some none else (decode value).map some
  | _ => (decode value).map some

end Document

/-- A member that has a default where it is missing; a member given twice is refused. -/
def memberOr {α : Type} (default : α) (decode : Yaml → Option α) (key : String)
    (members : List (String × Yaml)) : Option α :=
  match members.filter (·.1 == key) with
  | [] => some default
  | [(_, value)] => decode value
  | _ => none

end CodeSurvey.Yaml
