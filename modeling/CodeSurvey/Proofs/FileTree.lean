/-
# Trees as a file system holds them

In a file system the names of a directory differ from each other, and a name is neither empty nor a
way to say "here" or "outward", nor does it hold a slash (`FileTree.Proper`).  So a path is cut back
into the components that it was joined from (`pathComponents_pathOf`), and a component leads to one
entry (`hasFile_directory_cons`).
-/
import CodeSurvey.FileTree
import CodeSurvey.Proofs.Text.Pieces

namespace CodeSurvey

/-! ## Names and paths -/

def IsEntryName (name : String) : Prop :=
  name ≠ "" ∧ name ≠ "." ∧ name ≠ FileTree.outward ∧ '/' ∉ name.toList

instance : DecidablePred IsEntryName := fun name =>
  inferInstanceAs
    (Decidable (name ≠ "" ∧ name ≠ "." ∧ name ≠ FileTree.outward ∧ '/' ∉ name.toList))

def pathOf (names : List String) : String := "/".intercalate names

theorem pathOf_cons (name : String) {names : List String} (h : names ≠ []) :
    pathOf (name :: names) = name ++ "/" ++ pathOf names := by
  obtain ⟨second, others, rfl⟩ := List.exists_cons_of_ne_nil h
  exact String.intercalate_cons_cons

theorem splitAt_pathOf {names : List String} (hnil : names ≠ [])
    (h : ∀ name ∈ names, '/' ∉ name.toList) :
    Text.splitAt '/' (pathOf names).toList = names.map String.toList := by
  have hpath : (pathOf names).toList = ['/'].intercalate (names.map String.toList) :=
    String.toList_intercalate
  rw [Text.splitAt_eq_splitOn, hpath, List.splitOn_intercalate]
  · intro piece hpiece
    obtain ⟨name, hname, rfl⟩ := List.mem_map.1 hpiece
    exact h name hname
  · exact fun e => hnil (List.map_eq_nil_iff.1 e)

theorem pathComponents_pathOf {names : List String} (hnil : names ≠ [])
    (h : ∀ name ∈ names, '/' ∉ name.toList) : pathComponents (pathOf names) = names := by
  rw [pathComponents, splitAt_pathOf hnil h, List.map_map]
  exact (List.map_congr_left (fun name _ => String.ofList_toList)).trans (List.map_id names)

/-! ## Proper trees -/

namespace FileTree

/-- A tree as a file system can hold it. -/
inductive Proper : FileTree → Prop
  | file (bytes : List UInt8) : Proper (.file bytes)
  | link (target : String) : Proper (.link target)
  | directory {entries : List (String × FileTree)} :
      (∀ e ∈ entries, IsEntryName e.1) → (entries.map (·.1)).Nodup →
      (∀ e ∈ entries, e.2.Proper) → Proper (.directory entries)

/-- The components lead to a regular file, without a link on the way. -/
def HasFile (tree : FileTree) (names : List String) : Prop :=
  ∃ bytes, tree.at? names = some (.file bytes)

theorem ne_nil_of_hasFile_directory {entries : List (String × FileTree)} {names : List String}
    (h : (directory entries).HasFile names) : names ≠ [] := by
  rintro rfl
  obtain ⟨bytes, hat⟩ := h
  cases hat

theorem not_hasFile_of_no_entries {tree : FileTree} (h : tree.entries = []) {names : List String}
    (hnil : names ≠ []) : ¬ tree.HasFile names := by
  induction names generalizing tree with
  | nil => exact absurd rfl hnil
  | cons name names ih =>
      rintro ⟨bytes, hat⟩
      simp only [at?, h, List.lookup_nil, Option.ite_none_right_eq_some] at hat
      cases names with
      | nil => cases hat.2
      | cons => exact @ih (directory []) rfl (List.cons_ne_nil _ _) ⟨bytes, hat.2⟩

theorem lookup_eq_some_iff_mem {entries : List (String × FileTree)}
    (h : (entries.map (·.1)).Nodup) {name : String} {tree : FileTree} :
    entries.lookup name = some tree ↔ (name, tree) ∈ entries := by
  rw [List.lookup_eq_some_iff]
  constructor
  · rintro ⟨front, back, rfl, -⟩
    exact List.mem_append_right _ List.mem_cons_self
  · intro hmem
    obtain ⟨front, back, rfl⟩ := List.append_of_mem hmem
    refine ⟨front, back, rfl, fun e he => bne_iff_ne.2 ?_⟩
    rw [List.map_append, List.nodup_append] at h
    exact (h.2.2 e.1 (List.mem_map_of_mem he) name (List.mem_map_of_mem List.mem_cons_self)).symm

theorem hasFile_directory_cons {entries : List (String × FileTree)}
    (h : (directory entries).Proper) {name : String} {names : List String} :
    (directory entries).HasFile (name :: names) ↔
      ∃ tree, (name, tree) ∈ entries ∧ tree.HasFile names := by
  cases h with
  | directory hnames hnodup htrees =>
      cases hlookup : entries.lookup name with
      | none =>
          constructor
          · rintro ⟨bytes, hat⟩
            simp only [at?, FileTree.entries, hlookup, Option.ite_none_right_eq_some] at hat
            cases names with
            | nil => cases hat.2
            | cons =>
                have hempty : (directory []).HasFile _ := ⟨bytes, hat.2⟩
                exact absurd hempty (not_hasFile_of_no_entries rfl (List.cons_ne_nil _ _))
          · rintro ⟨tree, hmem, -⟩
            rw [(lookup_eq_some_iff_mem hnodup).2 hmem] at hlookup
            cases hlookup
      | some tree =>
          have hat : (directory entries).at? (name :: names) = tree.at? names := by
            simp only [at?, FileTree.entries, hlookup]
          rw [HasFile, hat]
          constructor
          · intro hfile
            exact ⟨tree, (lookup_eq_some_iff_mem hnodup).1 hlookup, hfile⟩
          · rintro ⟨other, hmem, hfile⟩
            rw [(lookup_eq_some_iff_mem hnodup).2 hmem, Option.some.injEq] at hlookup
            exact hlookup ▸ hfile

theorem Proper.isEntryName {tree : FileTree} (h : tree.Proper) {names : List String}
    (hfile : tree.HasFile names) : ∀ name ∈ names, IsEntryName name := by
  induction names generalizing tree with
  | nil => exact fun _ hmem => absurd hmem List.not_mem_nil
  | cons name names ih =>
      cases h with
      | file | link => exact absurd hfile (not_hasFile_of_no_entries rfl (List.cons_ne_nil _ _))
      | directory hnames hnodup htrees =>
          obtain ⟨child, hmem, hchild⟩ :=
            (hasFile_directory_cons (.directory hnames hnodup htrees)).1 hfile
          exact List.forall_mem_cons.2 ⟨hnames _ hmem, ih (htrees _ hmem) hchild⟩

end FileTree

end CodeSurvey
