/-
Maps kept in the order of their keys.

A map is a list of entries with strictly ascending keys, so two maps with the same entries are
equal.  The proof of the order is part of the map.  This is what makes tables comparable: the order
in which a source or a repository was gone through leaves no trace in them.
-/

namespace CodeSurvey

/-- Entries with strictly ascending keys. -/
structure SortedMap (κ ν : Type) [Ord κ] where
  entries : List (κ × ν)
  sorted : entries.Pairwise (fun a b => (compare a.1 b.1).isLT)

namespace SortedMap

variable {κ ν : Type} [Ord κ]

/-- The map without entries. -/
def empty : SortedMap κ ν := ⟨[], .nil⟩

instance : EmptyCollection (SortedMap κ ν) := ⟨empty⟩

instance : Inhabited (SortedMap κ ν) := ⟨empty⟩

instance [DecidableEq κ] [DecidableEq ν] : DecidableEq (SortedMap κ ν) := fun a b =>
  match decEq a.entries b.entries with
  | isTrue h => isTrue (by cases a; cases b; cases h; rfl)
  | isFalse h => isFalse (fun e => h (by rw [e]))

instance [Repr κ] [Repr ν] : Repr (SortedMap κ ν) := ⟨fun m n => reprPrec m.entries n⟩

/-- The keys in ascending order. -/
def keys (m : SortedMap κ ν) : List κ := m.entries.map (·.1)

/-- Change the value under a key, or give the key a first value. -/
def alterEntries (key : κ) (f : Option ν → ν) : List (κ × ν) → List (κ × ν)
  | [] => [(key, f none)]
  | (k, v) :: rest =>
    match compare key k with
    | .lt => (key, f none) :: (k, v) :: rest
    | .eq => (k, f (some v)) :: rest
    | .gt => (k, v) :: alterEntries key f rest

theorem mem_alterEntries {key : κ} {f : Option ν → ν} {entries : List (κ × ν)} {e : κ × ν}
    (h : e ∈ alterEntries key f entries) : e.1 = key ∨ ∃ e' ∈ entries, e'.1 = e.1 := by
  induction entries with
  | nil => simp [alterEntries] at h; exact .inl (by rw [h])
  | cons head rest ih =>
    obtain ⟨k, v⟩ := head
    simp only [alterEntries] at h
    split at h
    · rcases List.mem_cons.1 h with rfl | h
      · exact .inl rfl
      · exact .inr ⟨e, h, rfl⟩
    · rcases List.mem_cons.1 h with rfl | h
      · exact .inr ⟨(k, v), List.mem_cons_self, rfl⟩
      · exact .inr ⟨e, List.mem_cons_of_mem _ h, rfl⟩
    · rcases List.mem_cons.1 h with rfl | h
      · exact .inr ⟨(k, v), List.mem_cons_self, rfl⟩
      · rcases ih h with h | ⟨e', he', hk⟩
        · exact .inl h
        · exact .inr ⟨e', List.mem_cons_of_mem _ he', hk⟩

theorem sorted_alterEntries [Std.TransOrd κ] {key : κ} {f : Option ν → ν}
    {entries : List (κ × ν)}
    (h : entries.Pairwise (fun a b => (compare a.1 b.1).isLT)) :
    (alterEntries key f entries).Pairwise (fun a b => (compare a.1 b.1).isLT) := by
  induction entries with
  | nil => simp [alterEntries]
  | cons head rest ih =>
    obtain ⟨k, v⟩ := head
    have hk := (List.pairwise_cons.1 h).1
    have hrest := (List.pairwise_cons.1 h).2
    simp only [alterEntries]
    split
    case h_1 hc =>
      refine List.pairwise_cons.2 ⟨?_, h⟩
      intro e he
      rcases List.mem_cons.1 he with rfl | he
      · simp [hc]
      · have := hk e he
        simp only [Ordering.isLT_iff_eq_lt] at this ⊢
        exact Std.TransCmp.lt_trans hc this
    case h_2 => exact List.pairwise_cons.2 ⟨hk, hrest⟩
    case h_3 hc =>
      refine List.pairwise_cons.2 ⟨?_, ih hrest⟩
      intro e he
      rcases mem_alterEntries he with he | ⟨e', he', hke⟩
      · rw [he, Ordering.isLT_iff_eq_lt]
        exact Std.OrientedCmp.gt_iff_lt.1 hc
      · rw [← hke]
        exact hk e' he'

/-- Change the value under a key, or give the key a first value. -/
def alter [Std.TransOrd κ] (m : SortedMap κ ν) (key : κ) (f : Option ν → ν) : SortedMap κ ν :=
  ⟨alterEntries key f m.entries, sorted_alterEntries m.sorted⟩

/-- Set the value under a key. -/
def insert [Std.TransOrd κ] (m : SortedMap κ ν) (key : κ) (value : ν) : SortedMap κ ν :=
  m.alter key (fun _ => value)

/-- The map of entries given in any order; of two with one key the later counts. -/
def ofEntries [Std.TransOrd κ] (entries : List (κ × ν)) : SortedMap κ ν :=
  entries.foldl (fun m e => m.insert e.1 e.2) ∅

end SortedMap

end CodeSurvey
