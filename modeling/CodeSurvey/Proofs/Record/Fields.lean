/-
# Records field by field

A decoder gives a value back if it takes the JSON of the value to the value and a text keeps that
JSON (`GivenBack`).  A record is given back if its reader takes the fields in the order in which
its keys stand (`ReadsAs`, `GivenBack.record`); so a record is a chain of its fields, each with the
reason why that field is given back.
-/
import CodeSurvey.Json.Decode
import CodeSurvey.Proofs.Json.Reading
import CodeSurvey.Proofs.SortedMap

namespace CodeSurvey.Json

/-- A decoder takes a value to what it stands for, and a text gives the value back. -/
structure GivenBack {α : Type} (decode : Json → Option α) (value : Json) (a : α) : Prop where
  kept : Kept value
  decoded : decode value = some a

namespace GivenBack

theorem of_layout {α : Type} {decode : Json → Option α} {value : Json} {a : α}
    {layout : Json → String} (hlayout : IsLayout layout) (h : GivenBack decode value a) :
    (parse? (layout value).toList).bind decode = some a := by
  rw [hlayout.parse? h.kept]
  exact h.decoded

/-! ## Scalars and containers -/

theorem text (text : String) : GivenBack text? (.string text) text :=
  ⟨.string text, rfl⟩

theorem natBelow {bound n : Nat} (hbound : bound ≤ Count.limit) (h : n < bound) :
    GivenBack (natBelow? bound) (.nat n) n := by
  refine ⟨.nat (Nat.lt_of_lt_of_le h hbound), ?_⟩
  rw [nat, natBelow?, if_pos (by simp only [Bool.and_eq_true, decide_eq_true_eq]; omega)]
  rfl

theorem nat {n : Nat} (h : n < Count.limit) : GivenBack nat? (.nat n) n :=
  natBelow (Nat.le_refl _) h

theorem bool (b : Bool) : GivenBack bool? (.bool b) b :=
  ⟨.bool b, rfl⟩

theorem list {α : Type} {decode : Json → Option α} {encode : α → Json} {list : List α}
    (h : ∀ a ∈ list, GivenBack decode (encode a) a) :
    GivenBack (list? decode) (.array (list.map encode)) list := by
  refine ⟨.array (List.forall_mem_map.2 (fun a ha => (h a ha).kept)), ?_⟩
  rw [list?, mapM_map_eq_some (fun a ha => (h a ha).decoded)]

theorem texts (list : List String) : GivenBack texts? (.strings list) list :=
  .list (fun item _ => .text item)

theorem naturals {list : List Nat} (h : ∀ n ∈ list, n < Count.limit) :
    GivenBack naturals? (.nats list) list :=
  .list (fun n hn => .nat (h n hn))

theorem nullable {α : Type} {decode : Json → Option α} {value : Json} {a : α}
    (hvalue : value ≠ .null) (h : GivenBack decode value a) :
    GivenBack (nullable? decode) value (some a) := by
  refine ⟨h.kept, ?_⟩
  unfold nullable?
  split
  · exact absurd rfl hvalue
  · rw [h.decoded]
    rfl

theorem textOrNull : ∀ text : Option String, GivenBack (nullable? text?) (.ofOption text) text
  | some text => nullable Json.noConfusion (.text text)
  | none => ⟨.null, rfl⟩

theorem members {κ ν : Type} [Ord κ] [Std.TransOrd κ] {m : SortedMap κ ν}
    {encode : κ × ν → String × Json} {decode : String × Json → Option (κ × ν)}
    (hkept : ∀ e ∈ m.entries, Kept (encode e).2)
    (hdecoded : ∀ e ∈ m.entries, decode (encode e) = some e) :
    GivenBack (fun value => value.members?.bind
        (fun members => (members.mapM decode).bind (fun entries => some (.ofEntries entries))))
      (.object (m.entries.map encode)) m := by
  refine ⟨.object (List.forall_mem_map.2 hkept), ?_⟩
  simp only [members?, Option.bind_some, mapM_map_eq_some hdecoded, SortedMap.ofEntries_entries]

end GivenBack

/-! ## Records -/

def membersOf : List String → List (Option Json) → List (String × Json)
  | key :: keys, value :: values => optionalMember key value ++ membersOf keys values
  | _, _ => []

/-- What the record holds for a field. -/
def slotFor : Option Json → Slot
  | some value => .given value
  | none => .noKey

theorem key_mem_of_mem_membersOf {keys : List String} {values : List (Option Json)}
    {m : String × Json} (h : m ∈ membersOf keys values) : m.1 ∈ keys := by
  induction keys generalizing values with
  | nil => cases h
  | cons key keys ih =>
      cases values with
      | nil => cases h
      | cons value values =>
          rw [membersOf, List.mem_append] at h
          rcases h with h | h
          · cases value with
            | none => cases h
            | some value =>
                rw [List.mem_singleton.1 h]
                exact List.mem_cons_self
          · exact List.mem_cons_of_mem _ (ih h)

theorem mem_values_of_mem_membersOf {keys : List String} {values : List (Option Json)}
    {m : String × Json} (h : m ∈ membersOf keys values) : some m.2 ∈ values := by
  induction keys generalizing values with
  | nil => cases h
  | cons key keys ih =>
      cases values with
      | nil => cases h
      | cons value values =>
          rw [membersOf, List.mem_append] at h
          rcases h with h | h
          · cases value with
            | none => cases h
            | some value =>
                rw [List.mem_singleton.1 h]
                exact List.mem_cons_self
          · exact List.mem_cons_of_mem _ (ih h)

theorem slotOf_optionalMember_append {key other : String} (h : key ≠ other)
    (value : Option Json) (members : List (String × Json)) :
    slotOf (optionalMember key value ++ members) other = slotOf members other := by
  cases value with
  | none => rfl
  | some value =>
      have hskip : ((key, value).1 == other) = false := beq_eq_false_iff_ne.2 h
      rw [optionalMember, List.singleton_append, slotOf, List.filter_cons, hskip]
      rfl

theorem slotOf_membersOf_head {key : String} {keys : List String} (h : key ∉ keys)
    (value : Option Json) (values : List (Option Json)) :
    slotOf (membersOf (key :: keys) (value :: values)) key = some (slotFor value) := by
  have hothers : (membersOf keys values).filter (·.1 == key) = [] := by
    refine List.filter_eq_nil_iff.2 (fun m hm hkey => h ?_)
    rw [← eq_of_beq hkey]
    exact key_mem_of_mem_membersOf hm
  cases value with
  | none => simp only [membersOf, optionalMember, List.nil_append, slotOf, hothers, slotFor]
  | some value =>
      simp only [membersOf, optionalMember, List.singleton_append, slotOf, List.filter_cons,
        beq_self_eq_true, if_true, hothers, slotFor]

theorem slots?_membersOf {keys : List String} {values : List (Option Json)} (h : keys.Nodup)
    (hlength : keys.length = values.length) :
    slots? keys (.object (membersOf keys values)) = some (values.map slotFor) := by
  -- The keys shrink in the induction, while the members they are looked up in stay.
  suffices hall : ∀ members, (∀ key ∈ keys, slotOf members key =
      slotOf (membersOf keys values) key) → keys.mapM (slotOf members) =
        some (values.map slotFor) from hall _ (fun _ _ => rfl)
  intro members hmembers
  induction keys generalizing values with
  | nil =>
      rw [List.length_eq_zero_iff.1 hlength.symm]
      rfl
  | cons key keys ih =>
      obtain ⟨value, values, rfl⟩ := List.exists_cons_of_length_eq_add_one hlength.symm
      obtain ⟨hkey, hkeys⟩ := List.nodup_cons.1 h
      have hothers : ∀ other ∈ keys, slotOf members other =
          slotOf (membersOf keys values) other := fun other hother =>
        (hmembers other (List.mem_cons_of_mem _ hother)).trans
          (slotOf_optionalMember_append (ne_of_mem_of_not_mem hother hkey).symm value _)
      rw [List.mapM_cons, hmembers key List.mem_cons_self, slotOf_membersOf_head hkey,
        ih hkeys (Nat.succ.inj hlength) hothers]
      rfl

/-- A reader takes fields with these values, and no more, to a record. -/
structure ReadsAs {α : Type} (reader : FieldReader α) (values : List (Option Json)) (a : α) :
    Prop where
  kept : ∀ value, some value ∈ values → Kept value
  read : reader.run (values.map slotFor) = some (a, [])

theorem GivenBack.record {α : Type} {keys : List String} {reader : FieldReader α}
    {values : List (Option Json)} {value : Json} {a : α} (hread : ReadsAs reader values a)
    (hkeys : keys.Nodup) (hlength : keys.length = values.length)
    (hvalue : value = .object (membersOf keys values)) :
    GivenBack (record? keys reader) value a := by
  subst hvalue
  refine ⟨.object (fun m hm => hread.kept m.2 (mem_values_of_mem_membersOf hm)), ?_⟩
  rw [record?, slots?_membersOf hkeys hlength, Option.bind_some, hread.read]
  rfl

namespace ReadsAs

variable {α β : Type} {decode : Json → Option α} {next : α → FieldReader β} {value : Json}
  {values : List (Option Json)} {a : α} {b : β}

theorem done (b : β) : ReadsAs (pure b) [] b :=
  ⟨fun _ h => absurd h List.not_mem_nil, rfl⟩

theorem last {field : FieldReader β} (h : ReadsAs (field >>= pure) values b) :
    ReadsAs field values b := by
  rwa [bind_pure] at h

theorem step {field : FieldReader α} {first : Option Json} (hkept : ∀ value ∈ first, Kept value)
    (hfield : ∀ rest, field.run (slotFor first :: rest) = some (a, rest))
    (h : ReadsAs (next a) values b) : ReadsAs (field >>= next) (first :: values) b where
  kept value hvalue := by
    rcases List.mem_cons.1 hvalue with hvalue | hvalue
    · exact hkept value hvalue.symm
    · exact h.kept value hvalue
  read := by
    rw [StateT.run_bind, List.map_cons, hfield]
    exact h.read

theorem required (hfield : GivenBack decode value a) (h : ReadsAs (next a) values b) :
    ReadsAs (required decode >>= next) (some value :: values) b := by
  refine step (fun _ hvalue => Option.some.inj hvalue ▸ hfield.kept) (fun rest => ?_) h
  show (decode value).bind (fun a => some (a, rest)) = some (a, rest)
  rw [hfield.decoded]
  rfl

theorem optional {value : Json} {a : Option α} {next : Option α → FieldReader β}
    (hfield : GivenBack (nullable? decode) value a) (h : ReadsAs (next a) values b) :
    ReadsAs (optional decode >>= next) (some value :: values) b := by
  refine step (fun _ hvalue => Option.some.inj hvalue ▸ hfield.kept) (fun rest => ?_) h
  show (nullable? decode value).bind (fun a => some (a, rest)) = some (a, rest)
  rw [hfield.decoded]
  rfl

theorem given {default : α} (hfield : GivenBack decode value a) (h : ReadsAs (next a) values b) :
    ReadsAs (withDefault default decode >>= next) (some value :: values) b := by
  refine step (fun _ hvalue => Option.some.inj hvalue ▸ hfield.kept) (fun rest => ?_) h
  show (decode value).bind (fun a => some (a, rest)) = some (a, rest)
  rw [hfield.decoded]
  rfl

theorem leftOut {encode : α → Json} {a : Option α} {next : Option α → FieldReader β}
    (hvalue : ∀ a, encode a ≠ .null) (hfield : ∀ x ∈ a, GivenBack decode (encode x) x)
    (h : ReadsAs (next a) values b) :
    ReadsAs (withDefault none (nullable? decode) >>= next) (a.map encode :: values) b := by
  cases a with
  | none => exact step (fun _ hvalue => by cases hvalue) (fun _ => rfl) h
  | some a => exact given (.nullable (hvalue a) (hfield a rfl)) h

end ReadsAs

end CodeSurvey.Json
