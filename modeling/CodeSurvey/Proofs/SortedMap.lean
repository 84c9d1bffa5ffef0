/-
# Entries of a sorted map

A map is made of its own entries, inserted one by one (`ofEntries_entries`).  Altering a key changes
the entry under that key and no other (`entry_of_mem_alterEntries`, and `alterEntries_table` where
every key already has a value), and loses no key.

Entries ascend, so an alteration walks down the entries and stops at the first key that is not
smaller.  That no entry behind it has the key is the order again, so the proofs follow the three
ways in which a key compares with that of an entry.
-/
import CodeSurvey.SortedMap

namespace CodeSurvey.SortedMap

variable {κ ν : Type} [Ord κ]

/-! ## A map and its entries -/

section

variable [Std.TransOrd κ]

theorem alterEntries_of_forall_lt {key : κ} {f : Option ν → ν} {entries : List (κ × ν)}
    (h : ∀ e ∈ entries, (compare e.1 key).isLT) :
    alterEntries key f entries = entries ++ [(key, f none)] := by
  induction entries with
  | nil => rfl
  | cons e entries ih =>
      have hgt : compare key e.1 = .gt :=
        Std.OrientedCmp.gt_iff_lt.2 (Ordering.isLT_iff_eq_lt.1 (h e List.mem_cons_self))
      rw [alterEntries, hgt]
      exact congrArg _ (ih (fun e' he' => h e' (List.mem_cons_of_mem _ he')))

theorem entries_foldl_insert (entries : List (κ × ν)) (m : SortedMap κ ν)
    (h : (m.entries ++ entries).Pairwise (fun a b => (compare a.1 b.1).isLT)) :
    (entries.foldl (fun m e => m.insert e.1 e.2) m).entries = m.entries ++ entries := by
  induction entries generalizing m with
  | nil => rw [List.foldl_nil, List.append_nil]
  | cons e entries ih =>
      have hinsert : (m.insert e.1 e.2).entries = m.entries ++ [e] :=
        alterEntries_of_forall_lt
          (fun e' he' => (List.pairwise_append.1 h).2.2 e' he' e List.mem_cons_self)
      have hsplit : m.entries ++ e :: entries = (m.insert e.1 e.2).entries ++ entries := by
        rw [hinsert, List.append_assoc, List.singleton_append]
      rw [List.foldl_cons, ih _ (hsplit ▸ h), hsplit]

theorem ofEntries_entries (m : SortedMap κ ν) : ofEntries m.entries = m := by
  obtain ⟨entries, sorted⟩ := m
  have hentries : (ofEntries entries).entries = entries :=
    entries_foldl_insert entries empty sorted
  generalize ofEntries entries = made at hentries
  obtain ⟨made, _⟩ := made
  subst hentries
  rfl

end

/-! ## Altered entries -/

variable [Std.LawfulEqOrd κ]

theorem key_mem_alterEntries {key k : κ} (f : Option ν → ν) {entries : List (κ × ν)}
    (h : k = key ∨ k ∈ entries.map (·.1)) : k ∈ (alterEntries key f entries).map (·.1) := by
  induction entries with
  | nil => exact List.mem_singleton.2 (h.resolve_right List.not_mem_nil)
  | cons head rest ih =>
      obtain ⟨k', v⟩ := head
      rw [List.map_cons, List.mem_cons] at h
      rw [alterEntries]
      split
      · exact List.mem_cons.2 (h.imp_right List.mem_cons.2)
      · rename_i heq
        obtain rfl := Std.LawfulEqCmp.eq_of_compare heq
        exact List.mem_cons.2 (or_self_left.1 h)
      · rcases h with h | h | h
        · exact List.mem_cons_of_mem _ (ih (.inl h))
        · exact List.mem_cons.2 (.inl h)
        · exact List.mem_cons_of_mem _ (ih (.inr h))

theorem ne_of_isLT {a b : κ} (h : (compare a b).isLT) : a ≠ b := by
  rintro rfl
  rw [(Std.ReflOrd.compare_self : compare a a = .eq)] at h
  cases h

/-- An entry of an altered map: an old one under another key, the one under the key with its value
changed, or a first one for the key. -/
theorem entry_of_mem_alterEntries [Std.TransOrd κ] {key : κ} {f : Option ν → ν}
    {entries : List (κ × ν)}
    (hsorted : entries.Pairwise (fun a b => (compare a.1 b.1).isLT)) {e : κ × ν}
    (h : e ∈ alterEntries key f entries) :
    (e ∈ entries ∧ e.1 ≠ key) ∨ (∃ v, (key, v) ∈ entries ∧ e = (key, f (some v))) ∨
      (∀ old ∈ entries, old.1 ≠ key) ∧ e = (key, f none) := by
  induction entries with
  | nil => exact .inr (.inr ⟨fun _ h => absurd h List.not_mem_nil, List.mem_singleton.1 h⟩)
  | cons head rest ih =>
      obtain ⟨k, v⟩ := head
      obtain ⟨hk, hrest⟩ := List.pairwise_cons.1 hsorted
      rw [alterEntries] at h
      split at h
      · rename_i hlt
        have habove : ∀ old ∈ (k, v) :: rest, old.1 ≠ key := by
          refine List.forall_mem_cons.2 ⟨(ne_of_isLT (by rw [hlt]; rfl)).symm, fun old hold => ?_⟩
          have hkold := Ordering.isLT_iff_eq_lt.1 (hk old hold)
          exact (ne_of_isLT (Ordering.isLT_iff_eq_lt.2 (Std.TransCmp.lt_trans hlt hkold))).symm
        rcases List.mem_cons.1 h with rfl | h
        · exact .inr (.inr ⟨habove, rfl⟩)
        · exact .inl ⟨h, habove e h⟩
      · rename_i heq
        obtain rfl := Std.LawfulEqCmp.eq_of_compare heq
        rcases List.mem_cons.1 h with rfl | h
        · exact .inr (.inl ⟨v, List.mem_cons_self, rfl⟩)
        · exact .inl ⟨List.mem_cons_of_mem _ h, (ne_of_isLT (hk e h)).symm⟩
      · rename_i hgt
        have hne : k ≠ key := ne_of_isLT (by rw [Std.OrientedCmp.gt_iff_lt.1 hgt]; rfl)
        rcases List.mem_cons.1 h with rfl | h
        · exact .inl ⟨List.mem_cons_self, hne⟩
        · rcases ih hrest h with ⟨hold, hother⟩ | ⟨w, hw, heq⟩ | ⟨hfresh, heq⟩
          · exact .inl ⟨List.mem_cons_of_mem _ hold, hother⟩
          · exact .inr (.inl ⟨w, List.mem_cons_of_mem _ hw, heq⟩)
          · exact .inr (.inr ⟨List.forall_mem_cons.2 ⟨hne, hfresh⟩, heq⟩)

theorem alterEntries_table [Std.TransOrd κ] [DecidableEq κ] {key : κ} (f : Option ν → ν)
    (value : κ → ν) {keys : List κ} (hsorted : keys.Pairwise (fun a b => (compare a b).isLT))
    (h : key ∈ keys) :
    alterEntries key f (keys.map (fun k => (k, value k))) =
      keys.map (fun k => (k, if k = key then f (some (value k)) else value k)) := by
  induction keys with
  | nil => exact absurd h List.not_mem_nil
  | cons k rest ih =>
      obtain ⟨hk, hrest⟩ := List.pairwise_cons.1 hsorted
      rw [List.map_cons, List.map_cons, alterEntries]
      rcases List.mem_cons.1 h with rfl | h
      · have hothers : ∀ k' ∈ rest, (k', value k') =
            (k', if k' = key then f (some (value k')) else value k') := by
          intro k' hk'
          rw [if_neg (ne_of_isLT (hk k' hk')).symm]
        rw [Std.ReflOrd.compare_self, if_pos rfl]
        exact congrArg _ (List.map_congr_left hothers)
      · have hlt := Ordering.isLT_iff_eq_lt.1 (hk key h)
        rw [Std.OrientedCmp.gt_iff_lt.2 hlt, if_neg (ne_of_isLT (hk key h))]
        exact congrArg _ (ih hrest h)

end CodeSurvey.SortedMap
