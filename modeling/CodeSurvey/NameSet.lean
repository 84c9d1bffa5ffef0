/-
Sets of names that remember the order of first insertion.

Findings list names in the order in which a source first shows them.  The set is a list without
repeats, and it carries the proof; so whatever is read off a set is free of repeats by its type, and
no later proof has to follow how it was filled.
-/

namespace CodeSurvey

/-- Names without repeats, in the order they were first inserted. -/
structure NameSet where
  toList : List String
  nodup : toList.Nodup

namespace NameSet

def empty : NameSet := ⟨[], List.nodup_nil⟩

instance : EmptyCollection NameSet := ⟨empty⟩

instance : Inhabited NameSet := ⟨empty⟩

instance : Membership String NameSet := ⟨fun s name => name ∈ s.toList⟩

instance (name : String) (s : NameSet) : Decidable (name ∈ s) :=
  inferInstanceAs (Decidable (name ∈ s.toList))

theorem nodup_concat {names : List String} {name : String} (hs : names.Nodup)
    (hn : name ∉ names) : (names ++ [name]).Nodup := by
  refine List.nodup_append.2 ⟨hs, List.pairwise_singleton _ name, ?_⟩
  intro a ha b hb hab
  rw [List.mem_singleton] at hb
  exact hn (hb ▸ hab ▸ ha)

/-- Add a name at the end, unless it is there already. -/
def insert (s : NameSet) (name : String) : NameSet :=
  if h : name ∈ s.toList then s else ⟨s.toList ++ [name], nodup_concat s.nodup h⟩

/-- Add several names in order. -/
def insertAll (s : NameSet) (names : List String) : NameSet :=
  names.foldl insert s

/-- The distinct names of a list, in the order they first occur. -/
def ofList (names : List String) : NameSet :=
  empty.insertAll names

/-! ## Members -/

theorem mem_toList {s : NameSet} {name : String} : name ∈ s.toList ↔ name ∈ s :=
  Iff.rfl

theorem mem_insert {s : NameSet} {name added : String} :
    name ∈ s.insert added ↔ name ∈ s ∨ name = added := by
  rw [← mem_toList, insert]
  split
  · rename_i hadded
    exact ⟨Or.inl, fun h => h.elim id (fun heq => heq ▸ hadded)⟩
  · rw [List.mem_append, List.mem_singleton, mem_toList]

theorem mem_insertAll {s : NameSet} {name : String} {names : List String} :
    name ∈ s.insertAll names ↔ name ∈ s ∨ name ∈ names := by
  induction names generalizing s with
  | nil => exact ⟨Or.inl, fun h => h.elim id nofun⟩
  | cons added names ih =>
      have hstep : s.insertAll (added :: names) = (s.insert added).insertAll names := rfl
      rw [hstep, ih, mem_insert, List.mem_cons, or_assoc]

theorem mem_ofList {name : String} {names : List String} :
    name ∈ ofList names ↔ name ∈ names := by
  rw [ofList, mem_insertAll]
  exact ⟨fun h => h.elim nofun id, Or.inr⟩

end NameSet

end CodeSurvey
