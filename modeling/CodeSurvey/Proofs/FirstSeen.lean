/-
# What a list shows first

`List.eraseDups` keeps each element where it first occurs.  What is kept repeats nothing
(`nodup_eraseDups`), a list that repeats nothing is left as it is (`eraseDups_of_nodup`), and parts
may be cleared first (`eraseDups_append_eraseDups`).  A change of the elements that keeps them apart
may be made before or after (`eraseDups_map`).

Elements that share a key make a class, and the classes of a list come in the order in which their
keys are first seen (`classesBy`).  They are apart, two elements are in one class exactly if their
keys are equal, and the classes are in the order of their first members (`pairwise_classesBy`).

The others, whose key has been seen before, are `again`: with the distinct keys they make up the
list (`length_again`), and each key has one occurrence less in them (`count_again`).

What is made of some of the elements stands by them in their order (`forall₂_filterMap`).
-/
import Mathlib.Data.List.Basic
import Mathlib.Data.List.Forall2
import Mathlib.Data.List.Induction

namespace CodeSurvey

variable {α β κ : Type}

section Kept

variable [BEq α] [LawfulBEq α] [BEq β] [LawfulBEq β]

theorem eraseDups_concat_of_mem {l : List α} {a : α} (h : a ∈ l) :
    (l ++ [a]).eraseDups = l.eraseDups := by
  have hremoved : [a].removeAll l = [] := by simp [List.removeAll, h]
  rw [List.eraseDups_append, hremoved, List.eraseDups_nil, List.append_nil]

theorem eraseDups_concat_of_not_mem {l : List α} {a : α} (h : a ∉ l) :
    (l ++ [a]).eraseDups = l.eraseDups ++ [a] := by
  have hkept : [a].removeAll l = [a] := by simp [List.removeAll, h]
  rw [List.eraseDups_append, hkept]
  rfl

theorem nodup_eraseDups (l : List α) : l.eraseDups.Nodup := by
  induction l using List.reverseRecOn with
  | nil => exact List.nodup_nil
  | append_singleton l a ih =>
      by_cases hmem : a ∈ l
      · rw [eraseDups_concat_of_mem hmem]
        exact ih
      · rw [eraseDups_concat_of_not_mem hmem]
        refine List.nodup_append.2 ⟨ih, List.pairwise_singleton _ a, ?_⟩
        rintro b hb c hc rfl
        rw [List.mem_singleton.1 hc] at hb
        exact hmem (List.mem_eraseDups.1 hb)

/-- **Without repeats nothing is dropped.** -/
theorem eraseDups_of_nodup {l : List α} (h : l.Nodup) : l.eraseDups = l := by
  induction l using List.reverseRecOn with
  | nil => exact List.eraseDups_nil
  | append_singleton l a ih =>
      obtain ⟨hl, -, hapart⟩ := List.nodup_append.1 h
      have hnew : a ∉ l := fun hmem => hapart a hmem a (List.mem_singleton_self a) rfl
      rw [eraseDups_concat_of_not_mem hnew, ih hl]

/-- **Repeats may be dropped from parts first.** -/
theorem eraseDups_append_eraseDups (front back : List α) :
    (front.eraseDups ++ back.eraseDups).eraseDups = (front ++ back).eraseDups := by
  induction back using List.reverseRecOn with
  | nil =>
      rw [List.eraseDups_nil, List.append_nil, List.append_nil,
        eraseDups_of_nodup (nodup_eraseDups front)]
  | append_singleton back a ih =>
      rw [← List.append_assoc]
      by_cases hmem : a ∈ back
      · rw [eraseDups_concat_of_mem hmem, eraseDups_concat_of_mem (List.mem_append_right _ hmem),
          ih]
      · rw [eraseDups_concat_of_not_mem hmem, ← List.append_assoc]
        by_cases hfront : a ∈ front
        · rw [eraseDups_concat_of_mem (List.mem_append_left _ (List.mem_eraseDups.2 hfront)),
            eraseDups_concat_of_mem (List.mem_append_left _ hfront), ih]
        · have hnew : a ∉ front ++ back := by simp [hfront, hmem]
          have hkept : a ∉ front.eraseDups ++ back.eraseDups := by
            simpa [List.mem_eraseDups] using hnew
          rw [eraseDups_concat_of_not_mem hnew, eraseDups_concat_of_not_mem hkept, ih]

theorem eraseDups_map {f : α → β} (hf : Function.Injective f) (l : List α) :
    (l.map f).eraseDups = l.eraseDups.map f := by
  induction l using List.reverseRecOn with
  | nil => rfl
  | append_singleton l a ih =>
      rw [List.map_append, List.map_singleton]
      by_cases hmem : a ∈ l
      · rw [eraseDups_concat_of_mem hmem, eraseDups_concat_of_mem (List.mem_map_of_mem hmem), ih]
      · have hnew : f a ∉ l.map f := fun h => hmem ((List.mem_map_of_injective hf).1 h)
        rw [eraseDups_concat_of_not_mem hmem, eraseDups_concat_of_not_mem hnew, ih,
          List.map_append, List.map_singleton]

end Kept

/-! ## Classes by a key -/

/-- The elements that share a key, a class for each key. -/
def classesBy [BEq κ] (key : α → κ) (l : List α) : List (List α) :=
  (l.map key).eraseDups.map (fun k => l.filter (key · == k))

section Classes

variable [BEq κ] [LawfulBEq κ] {key : α → κ} {l : List α} {c : List α}

theorem mem_classesBy : c ∈ classesBy key l ↔ ∃ a ∈ l, l.filter (key · == key a) = c := by
  rw [classesBy, List.mem_map]
  constructor
  · rintro ⟨k, hk, hc⟩
    obtain ⟨a, ha, rfl⟩ := List.mem_map.1 (List.mem_eraseDups.1 hk)
    exact ⟨a, ha, hc⟩
  · rintro ⟨a, ha, hc⟩
    exact ⟨key a, List.mem_eraseDups.2 (List.mem_map_of_mem ha), hc⟩

theorem sublist_of_mem_classesBy (h : c ∈ classesBy key l) : c.Sublist l := by
  obtain ⟨a, -, rfl⟩ := mem_classesBy.1 h
  exact List.filter_sublist

/-- **Two elements are in one class exactly if their keys are equal.** -/
theorem exists_class_iff {a b : α} (ha : a ∈ l) (hb : b ∈ l) :
    (∃ c ∈ classesBy key l, a ∈ c ∧ b ∈ c) ↔ key a = key b := by
  constructor
  · rintro ⟨c, hc, hac, hbc⟩
    obtain ⟨k, -, rfl⟩ := mem_classesBy.1 hc
    exact (eq_of_beq (List.mem_filter.1 hac).2).trans (eq_of_beq (List.mem_filter.1 hbc).2).symm
  · intro hkey
    exact ⟨_, mem_classesBy.2 ⟨a, ha, rfl⟩, List.mem_filter.2 ⟨ha, beq_self_eq_true _⟩,
      List.mem_filter.2 ⟨hb, beq_iff_eq.2 hkey.symm⟩⟩

theorem disjoint_classesBy : (classesBy key l).Pairwise List.Disjoint := by
  rw [classesBy, List.pairwise_map]
  refine (nodup_eraseDups _).imp (fun {k k'} hne => ?_)
  intro a ha ha'
  exact hne ((eq_of_beq (List.mem_filter.1 ha).2).symm.trans
    (eq_of_beq (List.mem_filter.1 ha').2))

theorem head?_filter_concat {k : κ} (hk : k ∈ l.map key) (x : α) :
    ((l ++ [x]).filter (key · == k)).head? = (l.filter (key · == k)).head? := by
  obtain ⟨a, ha, rfl⟩ := List.mem_map.1 hk
  rw [List.filter_append, List.head?_append_of_ne_nil]
  exact List.ne_nil_of_mem (List.mem_filter.2 ⟨ha, beq_self_eq_true _⟩)

theorem filter_concat_of_new {x : α} (hnew : key x ∉ l.map key) :
    (l ++ [x]).filter (key · == key x) = [x] := by
  have hnone : l.filter (key · == key x) = [] := by
    refine List.filter_eq_nil_iff.2 (fun a ha hkey => hnew ?_)
    rw [← eq_of_beq hkey]
    exact List.mem_map_of_mem ha
  have hself : [x].filter (key · == key x) = [x] :=
    List.filter_cons_of_pos (p := (key · == key x)) (beq_self_eq_true (key x))
  rw [List.filter_append, hnone, List.nil_append, hself]

/-- **The classes are in the order of their first members.** -/
theorem pairwise_classesBy {R : α → α → Prop} (h : l.Pairwise R) :
    (classesBy key l).Pairwise (fun c d => ∀ a ∈ c.head?, ∀ b ∈ d.head?, R a b) := by
  rw [classesBy, List.pairwise_map]
  induction l using List.reverseRecOn with
  | nil => exact List.Pairwise.nil
  | append_singleton l x ih =>
      obtain ⟨hl, -, hlast⟩ := List.pairwise_append.1 h
      have hold : (l.map key).eraseDups.Pairwise (fun k k' =>
          ∀ a ∈ ((l ++ [x]).filter (key · == k)).head?,
            ∀ b ∈ ((l ++ [x]).filter (key · == k')).head?, R a b) := by
        refine (ih hl).imp_of_mem (fun {k k'} hk hk' hR => ?_)
        rw [head?_filter_concat (List.mem_eraseDups.1 hk),
          head?_filter_concat (List.mem_eraseDups.1 hk')]
        exact hR
      rw [List.map_append, List.map_singleton]
      by_cases hseen : key x ∈ l.map key
      · rw [eraseDups_concat_of_mem hseen]
        exact hold
      · rw [eraseDups_concat_of_not_mem hseen]
        refine List.pairwise_append.2 ⟨hold, List.pairwise_singleton _ _, ?_⟩
        intro k hk k' hk' a ha b hb
        rw [head?_filter_concat (List.mem_eraseDups.1 hk)] at ha
        rw [List.mem_singleton.1 hk', filter_concat_of_new hseen] at hb
        exact hlast a (List.mem_filter.1 (List.mem_of_head? ha)).1 b
          (List.mem_of_head? hb)

end Classes

/-! ## What comes again -/

/-- The elements of a list whose key an element before them has. -/
def again [BEq κ] (key : α → κ) (l : List α) : List α :=
  (l.zipIdx.filter (fun e => ((l.take e.2).map key).contains (key e.1))).map Prod.fst

section Again

variable [BEq κ]

theorem again_concat (key : α → κ) (l : List α) (a : α) :
    again key (l ++ [a]) = again key l ++ if (l.map key).contains (key a) then [a] else [] := by
  have hbefore : ∀ e ∈ l.zipIdx, (((l ++ [a]).take e.2).map key).contains (key e.1) =
      ((l.take e.2).map key).contains (key e.1) := by
    intro e he
    rw [List.take_append_of_le_length (Nat.le_of_lt (List.snd_lt_of_mem_zipIdx he))]
  have hlast : (l ++ [a]).take l.length = l := List.take_left
  rw [again, again, List.zipIdx_append, List.filter_append, List.filter_congr hbefore,
    List.map_append, Nat.zero_add]
  congr 1
  rw [List.zipIdx_singleton, List.filter_singleton, hlast]
  cases (l.map key).contains (key a) with
  | true => rfl
  | false => rfl

variable [LawfulBEq κ]

/-- **An element is kept, or it comes again.** -/
theorem length_again (key : α → κ) (l : List α) :
    l.length = (l.map key).eraseDups.length + (again key l).length := by
  induction l using List.reverseRecOn with
  | nil => rfl
  | append_singleton l a ih =>
      rw [again_concat, List.map_append, List.map_singleton, List.length_append,
        List.length_append, ih]
      by_cases hseen : key a ∈ l.map key
      · rw [eraseDups_concat_of_mem hseen, if_pos (List.contains_iff_mem.2 hseen)]
        exact Nat.add_assoc _ _ _
      · rw [eraseDups_concat_of_not_mem hseen, if_neg (mt List.contains_iff_mem.1 hseen),
          List.length_append]
        exact Nat.add_right_comm _ _ _

/-- **Each key comes again once less than it comes.** -/
theorem count_again (key : α → κ) (l : List α) (k : κ) :
    ((again key l).map key).count k = (l.map key).count k - 1 := by
  induction l using List.reverseRecOn with
  | nil => rfl
  | append_singleton l a ih =>
      rw [again_concat, List.map_append, List.map_append, List.map_singleton, List.count_append,
        List.count_append, ih]
      by_cases hkey : key a = k
      · subst hkey
        by_cases hseen : key a ∈ l.map key
        · have hpos := List.count_pos_iff.2 hseen
          rw [if_pos (List.contains_iff_mem.2 hseen), List.map_singleton,
            List.count_singleton_self]
          omega
        · rw [if_neg (mt List.contains_iff_mem.1 hseen), List.count_eq_zero.2 hseen,
            List.count_singleton_self]
          rfl
      · have hnone : [key a].count k = 0 := List.count_eq_zero.2 (by simpa using Ne.symm hkey)
        rw [hnone]
        split
        · rw [List.map_singleton, hnone]
          rfl
        · rfl

end Again

/-- What is made of some elements of a list stands by those elements, in their order. -/
theorem forall₂_filterMap (f : α → Option β) (l : List α) :
    List.Forall₂ (fun a b => f a = some b) (l.filter (fun a => (f a).isSome)) (l.filterMap f) := by
  induction l with
  | nil => exact .nil
  | cons a l ih =>
      cases ha : f a with
      | none =>
          rw [List.filter_cons_of_neg (by rw [ha]; exact Bool.false_ne_true),
            List.filterMap_cons_none ha]
          exact ih
      | some b =>
          rw [List.filter_cons_of_pos (by rw [ha]; rfl), List.filterMap_cons_some ha]
          exact .cons ha ih

end CodeSurvey
