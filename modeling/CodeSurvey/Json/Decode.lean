/-
Decoding records from JSON.

A record is an object with one member for each field, or an array of the fields in order.  Members
that no field asks for are ignored; a key given twice is refused.  Each field says what becomes of
it when it is not there.
-/
import CodeSurvey.Count
import CodeSurvey.Json.Value

namespace CodeSurvey.Json

/-! ## Scalars and containers -/

def text? : Json → Option String
  | .string text => some text
  | _ => none

def natBelow? (bound : Nat) : Json → Option Nat
  | .int n => if 0 ≤ n && n < bound then some n.toNat else none
  | _ => none

/-- A natural number of 64 bits. -/
def nat? : Json → Option Nat := natBelow? Count.limit

/-- A truth value. -/
def bool? : Json → Option Bool
  | .bool b => some b
  | _ => none

def list? {α : Type} (decode : Json → Option α) : Json → Option (List α)
  | .array items => items.mapM decode
  | _ => none

/-- A value, or nothing for null. -/
def nullable? {α : Type} (decode : Json → Option α) : Json → Option (Option α)
  | .null => some none
  | value => (decode value).map some

def texts? : Json → Option (List String) := list? text?

def naturals? : Json → Option (List Nat) := list? nat?

def members? : Json → Option (List (String × Json))
  | .object members => some members
  | _ => none

/-- The name of a choice without data: the name alone, or an object that gives it null. -/
def choice? : Json → Option String
  | .string name => some name
  | .object [(name, .null)] => some name
  | _ => none

/-! ## Records -/

/-- What a value holds for one field. -/
inductive Slot where
  | given (value : Json)
  /-- The object has no such key. -/
  | noKey
  /-- The array ends before the field. -/
  | noItem
deriving Repr

/-- What the members of an object hold for a key. -/
def slotOf (members : List (String × Json)) (key : String) : Option Slot :=
  match members.filter (·.1 == key) with
  | [] => some .noKey
  | [(_, value)] => some (.given value)
  | _ => none

def slotsInOrder : List String → List Json → Option (List Slot)
  | [], [] => some []
  | [], _ :: _ => none
  | _ :: keys, [] => (slotsInOrder keys []).map (.noItem :: ·)
  | _ :: keys, item :: items => (slotsInOrder keys items).map (.given item :: ·)

/-- What a value holds for the fields of a record. -/
def slots? (keys : List String) : Json → Option (List Slot)
  | .object members => keys.mapM (slotOf members)
  | .array items => slotsInOrder keys items
  | _ => none

/-- Reads the fields of a record one after the other. -/
abbrev FieldReader := StateT (List Slot) Option

def nextSlot : FieldReader Slot := fun slots =>
  match slots with
  | [] => none
  | slot :: rest => some (slot, rest)

/-- A field that must be there. -/
def required {α : Type} (decode : Json → Option α) : FieldReader α := do
  match ← nextSlot with
  | .given value => (decode value : Option α)
  | _ => failure

/-- A field that may be null, or missing from an object. -/
def optional {α : Type} (decode : Json → Option α) : FieldReader (Option α) := do
  match ← nextSlot with
  | .given value => (nullable? decode value : Option (Option α))
  | .noKey => return none
  | .noItem => failure

/-- A field that has a default where it is missing. -/
def withDefault {α : Type} (default : α) (decode : Json → Option α) : FieldReader α := do
  match ← nextSlot with
  | .given value => (decode value : Option α)
  | _ => return default

def record? {α : Type} (keys : List String) (reader : FieldReader α) (value : Json) : Option α :=
  (slots? keys value).bind (fun slots => (reader.run slots).map (·.1))

end CodeSurvey.Json
