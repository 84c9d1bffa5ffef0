/-
# Functions with equal bodies

The groups of duplicates are filled function by function, by the digest of the body.  What comes out
are the classes of the functions by their digest (`foldl_addToGroup`), so as long as no two bodies
of a source share a digest, the groups are the classes of equal bodies
(`duplicates_are_equal_bodies`).  Bodies are compared without indentation and without the blank
lines at both ends, and functions without a body are left out.
-/
import CodeSurvey.Proofs.FirstSeen
import CodeSurvey.Proofs.Python.Numbering

namespace CodeSurvey.Python

open Text

/-- The text of a function that is compared: its lines without their indentation. -/
def Function.bodyText (f : Function) : List Char := normalized f.block

def Function.bodyDigest (f : Function) : String := digestOf f.bodyText

/-- Whether anything but blanks stands below a header. -/
def Function.hasBody (f : Function) : Bool := !f.bodyText.isEmpty

theorem Function.hasBody_iff {f : Function} : f.hasBody = true ↔ f.bodyText ≠ [] := by
  rw [Function.hasBody, Bool.not_eq_true', List.isEmpty_eq_false_iff]

/-! ## The groups -/

section Fold

variable {functions : List Function} {f : Function}

def groupOf (functions : List Function) (digest : String) : String × List String :=
  (digest, (functions.filter (·.bodyDigest == digest)).map Function.name)

/-- The groups of functions, in the order in which their digests are first seen. -/
def groupsOf (functions : List Function) : List (String × List String) :=
  (functions.map Function.bodyDigest).eraseDups.map (groupOf functions)

theorem groupOf_concat_self (functions : List Function) (f : Function) :
    groupOf (functions ++ [f]) f.bodyDigest =
      (f.bodyDigest, (groupOf functions f.bodyDigest).2 ++ [f.name]) := by
  have hself : [f].filter (fun g : Function => g.bodyDigest == f.bodyDigest) = [f] := by
    simp
  rw [groupOf, groupOf, List.filter_append, hself, List.map_append, List.map_singleton]

theorem groupOf_concat_of_ne {digest : String} (h : f.bodyDigest ≠ digest) :
    groupOf (functions ++ [f]) digest = groupOf functions digest := by
  have hother : [f].filter (fun g : Function => g.bodyDigest == digest) = [] := by
    simp [h]
  rw [groupOf, groupOf, List.filter_append, hother, List.append_nil]

theorem any_groupsOf (functions : List Function) (digest : String) :
    (groupsOf functions).any (·.1 == digest) = true ↔
      digest ∈ functions.map Function.bodyDigest := by
  rw [groupsOf, List.any_map, List.any_eq_true]
  constructor
  · rintro ⟨k, hk, heq⟩
    rw [← eq_of_beq heq]
    exact List.mem_eraseDups.1 hk
  · intro h
    exact ⟨digest, List.mem_eraseDups.2 h, beq_self_eq_true digest⟩

theorem addToGroup_of_not_hasBody {groups : List (String × List String)}
    (h : f.hasBody = false) : addToGroup groups f = groups :=
  if_pos ((Bool.not_eq_false' _).mp h)

theorem addToGroup_of_hasBody {groups : List (String × List String)} (h : f.hasBody = true) :
    addToGroup groups f =
      if groups.any (·.1 == f.bodyDigest) then
        groups.map (fun g => if g.1 == f.bodyDigest then (g.1, g.2 ++ [f.name]) else g)
      else groups ++ [(f.bodyDigest, [f.name])] :=
  if_neg (Bool.eq_false_iff.1 ((Bool.not_eq_true' _).mp h))

theorem addToGroup_groupsOf (hbody : f.hasBody = true) :
    addToGroup (groupsOf functions) f = groupsOf (functions ++ [f]) := by
  rw [addToGroup_of_hasBody hbody]
  by_cases hseen : f.bodyDigest ∈ functions.map Function.bodyDigest
  · rw [if_pos ((any_groupsOf functions _).2 hseen), groupsOf, groupsOf, List.map_append,
      List.map_singleton, eraseDups_concat_of_mem hseen, List.map_map]
    refine List.map_congr_left (fun digest _ => ?_)
    by_cases heq : f.bodyDigest = digest
    · subst heq
      rw [groupOf_concat_self]
      exact if_pos (beq_self_eq_true f.bodyDigest)
    · rw [groupOf_concat_of_ne heq]
      exact if_neg (fun hbeq => heq (eq_of_beq hbeq).symm)
  · have hnew : (groupOf functions f.bodyDigest).2 = [] := by
      refine List.map_eq_nil_iff.2 (List.filter_eq_nil_iff.2 (fun g hg heq => hseen ?_))
      rw [← eq_of_beq heq]
      exact List.mem_map_of_mem hg
    have hold : (functions.map Function.bodyDigest).eraseDups.map (groupOf functions) =
        (functions.map Function.bodyDigest).eraseDups.map (groupOf (functions ++ [f])) := by
      refine List.map_congr_left (fun digest hdigest => ?_)
      refine (groupOf_concat_of_ne (fun heq => hseen ?_)).symm
      rw [heq]
      exact List.mem_eraseDups.1 hdigest
    rw [if_neg (fun hany => hseen ((any_groupsOf functions _).1 hany)), groupsOf, groupsOf,
      List.map_append, List.map_singleton, eraseDups_concat_of_not_mem hseen, List.map_append,
      List.map_singleton, groupOf_concat_self, hnew, hold]
    rfl

/-- **The groups of duplicates are the classes of the functions with a body, by its digest.** -/
theorem foldl_addToGroup (functions : List Function) :
    functions.foldl addToGroup [] = groupsOf (functions.filter Function.hasBody) := by
  induction functions using List.reverseRecOn with
  | nil => rfl
  | append_singleton functions f ih =>
      rw [List.foldl_append, List.foldl_cons, List.foldl_nil, ih, List.filter_append]
      cases hbody : f.hasBody with
      | true => rw [List.filter_cons_of_pos hbody, List.filter_nil, addToGroup_groupsOf hbody]
      | false =>
          rw [List.filter_cons_of_neg (Bool.eq_false_iff.1 hbody), List.filter_nil,
            List.append_nil, addToGroup_of_not_hasBody hbody]

def duplicates (functions : List Function) : List (List Function) :=
  (classesBy Function.bodyDigest (functions.filter Function.hasBody)).filter (1 < ·.length)

theorem duplicateGroups_eq (functions : List Function) :
    duplicateGroups functions = (duplicates functions).map (·.map Function.name) := by
  have hlength : (fun names : List String => decide (1 < names.length)) ∘ List.map Function.name =
      fun group : List Function => decide (1 < group.length) := by
    funext group
    rw [Function.comp_apply, List.length_map]
  rw [duplicateGroups, foldl_addToGroup, groupsOf, List.map_map, duplicates, classesBy,
    ← hlength, ← List.filter_map, List.map_map]
  rfl

end Fold

/-! ## Equal bodies -/

/-- No two of the texts have one digest. -/
def NoCollision (texts : List (List Char)) : Prop :=
  ∀ text ∈ texts, ∀ other ∈ texts, digestOf text = digestOf other → text = other

instance (texts : List (List Char)) : Decidable (NoCollision texts) :=
  inferInstanceAs (Decidable (∀ text ∈ texts, ∀ other ∈ texts, _ → _))

/-- The groups are the functions with equal bodies. -/
structure GroupsByBody (functions : List Function) (groups : List (List Function)) : Prop where
  members : ∀ group ∈ groups, ∀ f ∈ group, f ∈ functions ∧ f.bodyText ≠ []
  together_iff : ∀ f ∈ functions, ∀ g ∈ functions, f ≠ g → f.bodyText ≠ [] → g.bodyText ≠ [] →
    ((∃ group ∈ groups, f ∈ group ∧ g ∈ group) ↔ f.bodyText = g.bodyText)
  two_members : ∀ group ∈ groups, 2 ≤ group.length
  in_source_order : ∀ group ∈ groups, group.Pairwise (fun f g => f.number < g.number)
  by_first_member :
    groups.Pairwise (fun c d => ∀ f ∈ c.head?, ∀ g ∈ d.head?, f.number < g.number)
  apart : groups.Pairwise List.Disjoint

theorem one_lt_length_of_mem {group : List Function} {f g : Function} (hf : f ∈ group)
    (hg : g ∈ group) (hne : f ≠ g) : 1 < group.length := by
  rcases group with _ | ⟨first, _ | ⟨second, rest⟩⟩
  · cases hf
  · exact absurd ((List.mem_singleton.1 hf).trans (List.mem_singleton.1 hg).symm) hne
  · exact Nat.succ_lt_succ (Nat.succ_pos _)

theorem groupsByBody_duplicates {functions : List Function}
    (horder : functions.Pairwise (fun f g => f.number < g.number))
    (hdigest : NoCollision (functions.map Function.bodyText)) :
    GroupsByBody functions (duplicates functions) := by
  have hkept := horder.filter Function.hasBody
  have hsub : ∀ group ∈ duplicates functions,
      group.Sublist (functions.filter Function.hasBody) :=
    fun group hgroup => sublist_of_mem_classesBy (List.mem_filter.1 hgroup).1
  constructor
  case members =>
    intro group hgroup f hf
    obtain ⟨hmem, hbody⟩ := List.mem_filter.1 ((hsub group hgroup).subset hf)
    exact ⟨hmem, Function.hasBody_iff.1 hbody⟩
  case together_iff =>
    intro f hf g hg hne hfbody hgbody
    have hclass : (∃ group ∈ classesBy Function.bodyDigest (functions.filter Function.hasBody),
        f ∈ group ∧ g ∈ group) ↔ f.bodyDigest = g.bodyDigest :=
      exists_class_iff (List.mem_filter.2 ⟨hf, Function.hasBody_iff.2 hfbody⟩)
        (List.mem_filter.2 ⟨hg, Function.hasBody_iff.2 hgbody⟩)
    constructor
    · rintro ⟨group, hgroup, hfin, hgin⟩
      exact hdigest _ (List.mem_map_of_mem hf) _ (List.mem_map_of_mem hg)
        (hclass.1 ⟨group, (List.mem_filter.1 hgroup).1, hfin, hgin⟩)
    · intro heq
      obtain ⟨group, hgroup, hfin, hgin⟩ := hclass.2 (congrArg digestOf heq)
      exact ⟨group, List.mem_filter.2
        ⟨hgroup, decide_eq_true (one_lt_length_of_mem hfin hgin hne)⟩, hfin, hgin⟩
  case two_members =>
    intro group hgroup
    exact of_decide_eq_true (List.mem_filter.1 hgroup).2
  case in_source_order => exact fun group hgroup => hkept.sublist (hsub group hgroup)
  case by_first_member => exact (pairwise_classesBy hkept).filter _
  case apart => exact disjoint_classesBy.filter _

/-- **Duplicates are the functions with equal bodies.**  If no two bodies share a digest, the groups
that are reported are groups of functions of the source: two functions that have a body are in one
group exactly if their bodies are equal, no function is in two groups, and the groups and their
members are in the order of the source. -/
theorem duplicates_are_equal_bodies (source : String)
    (h : NoCollision ((functionsIn (linesOf source)).map Function.bodyText)) :
    ∃ groups : List (List Function),
      (analyze source).duplicateFunctions = groups.map (·.map Function.name) ∧
        GroupsByBody (functionsIn (linesOf source)) groups :=
  ⟨duplicates (functionsIn (linesOf source)), duplicateGroups_eq _,
    groupsByBody_duplicates (pairwise_number_functionsIn _) h⟩

/-- A function, a method with the same body further in and a blank line below it, and a third whose
body only begins like theirs. -/
def threeBodies : String :=
  "def f():\n  x = 1\n  return x\nclass A:\n    def g(self):\n        x = 1\n        return x\n\n" ++
    "def h():\n  x = 1\n  return 2"

/-- The first two are duplicates, by text as by digest; the line that tells the third from them is
its second. -/
theorem threeBodies_grouped :
    NoCollision ((functionsIn (linesOf threeBodies)).map Function.bodyText) ∧
      (functionsIn (linesOf threeBodies)).map (fun f => (f.name, String.ofList f.bodyText)) =
        [("f", "x = 1\nreturn x"), ("g", "x = 1\nreturn x"), ("h", "x = 1\nreturn 2")] ∧
      ∃ groups : List (List Function),
        groups.map (·.map Function.name) = [["f", "g"]] ∧
          GroupsByBody (functionsIn (linesOf threeBodies)) groups := by
  have hdigest : NoCollision ((functionsIn (linesOf threeBodies)).map Function.bodyText) := by
    decide +kernel
  obtain ⟨groups, hgroups, hbodies⟩ := duplicates_are_equal_bodies threeBodies hdigest
  have hreported : (analyze threeBodies).duplicateFunctions = [["f", "g"]] := by decide +kernel
  exact ⟨hdigest, by decide +kernel, groups, hgroups.symm.trans hreported, hbodies⟩

end CodeSurvey.Python
