/-
# What the scan of a line misses

The scan pushes all opening tags of a line before it looks at the first closing one.  Here a line is
a list of tags in the order in which it has them, and `openingsFirst` is the order in which the scan
takes them.  For one name, either order leaves as many tags open, orphans apart, as were opened and
not closed; the order of the scan leaves the fewest.  So what the scan misses it misses in pairs, an
orphan and an open tag of one name (`Misses.visitAll`).
-/
import Mathlib.Data.List.Basic
import CodeSurvey.Scan.Html

namespace CodeSurvey.Html

open Text

/-! ## Tags -/

/-- A tag that opens an element and leaves it open, or one that closes an element. -/
inductive Tag where
  | opening (location : TagLocation)
  | closing (location : TagLocation)
deriving DecidableEq, Repr

namespace Tag

def name : Tag → String
  | opening location => location.tag
  | closing location => location.tag

def isOpening : Tag → Bool
  | opening _ => true
  | closing _ => false

def isClosing : Tag → Bool
  | opening _ => false
  | closing _ => true

end Tag

def TagState.visit (s : TagState) : Tag → TagState
  | .opening location => s.push location
  | .closing location => s.close location

/-- Read tags in order. -/
def TagState.visitAll (s : TagState) (tags : List Tag) : TagState :=
  tags.foldl visit s

/-- Tags read on an empty stack. -/
def alone (tags : List Tag) : TagState :=
  TagState.visitAll ⟨[], []⟩ tags

/-- The order of the scan: the opening tags, then the closing ones. -/
def openingsFirst (tags : List Tag) : List Tag :=
  tags.filter Tag.isOpening ++ tags.filter Tag.isClosing

theorem visitAll_cons (s : TagState) (tag : Tag) (rest : List Tag) :
    s.visitAll (tag :: rest) = (s.visit tag).visitAll rest :=
  rfl

theorem visitAll_append (s : TagState) (front back : List Tag) :
    s.visitAll (front ++ back) = (s.visitAll front).visitAll back :=
  List.foldl_append

/-! ## The scan as a list of tags -/

/-- The tags of a line in the order of the scan: those it opens, then those it closes. -/
def scannedTags (number : Nat) (line : Line) : List Tag :=
  (openedTags number line).map .opening ++ (closedTags number line).map .closing

theorem readLine_eq_visitAll (s : TagState) (number : Nat) (line : Line) :
    s.readLine number line = s.visitAll (scannedTags number line) := by
  rw [scannedTags, visitAll_append, TagState.visitAll, TagState.visitAll, List.foldl_map,
    List.foldl_map]
  rfl

theorem readLines_eq_visitAll (s : TagState) (number : Nat) (lines : List Line) :
    s.readLines number lines = s.visitAll (eachLine scannedTags number lines) := by
  induction lines generalizing s number with
  | nil => rfl
  | cons line rest ih =>
      rw [TagState.readLines, ih, readLine_eq_visitAll, eachLine, visitAll_append]

/-! ## Counting by name -/

namespace Tag

def opens (name : String) (tag : Tag) : Bool := tag.isOpening && tag.name == name

def closes (name : String) (tag : Tag) : Bool := tag.isClosing && tag.name == name

end Tag

def TagState.openCount (s : TagState) (name : String) : Nat :=
  s.stack.countP (·.tag == name)

/-- How many closing tags of a name found none. -/
def TagState.orphanCount (s : TagState) (name : String) : Nat :=
  s.orphans.countP (·.tag == name)

section Erase

variable {α : Type} {p keep : α → Bool}

theorem filter_eraseP_of_imp (h : ∀ a, p a = true → keep a = true) (l : List α) :
    (l.eraseP p).filter keep = (l.filter keep).eraseP p := by
  have hboth : (fun a => p a && keep a) = p := by
    funext a
    cases hp : p a with
    | false => rfl
    | true => rw [h a hp]; rfl
  rw [List.eraseP_filter, hboth]

theorem filter_eraseP_of_disjoint (h : ∀ a, p a = true → keep a = false) (l : List α) :
    (l.eraseP p).filter keep = l.filter keep := by
  induction l with
  | nil => rfl
  | cons a l ih =>
      cases hp : p a with
      | true => rw [List.eraseP_cons_of_pos hp, List.filter_cons, h a hp]; rfl
      | false =>
          rw [List.eraseP_cons_of_neg (by rw [hp]; exact Bool.false_ne_true), List.filter_cons,
            List.filter_cons, ih]

end Erase

theorem any_iff_openCount_pos (s : TagState) (name : String) :
    s.stack.any (·.tag == name) = true ↔ 0 < s.openCount name := by
  rw [TagState.openCount, List.countP_pos_iff, List.any_eq_true]

theorem counts_close_of_ne (s : TagState) {location : TagLocation} {name : String}
    (hname : location.tag ≠ name) :
    (s.close location).openCount name = s.openCount name ∧
      (s.close location).orphanCount name = s.orphanCount name := by
  unfold TagState.close
  split
  · refine ⟨?_, rfl⟩
    have hdisjoint : ∀ tag : TagLocation,
        (tag.tag == location.tag) = true → (tag.tag == name) = false :=
      fun tag htag => beq_eq_false_iff_ne.2 (fun heq => hname ((beq_iff_eq.1 htag).symm.trans heq))
    rw [TagState.openCount, List.countP_eq_length_filter, filter_eraseP_of_disjoint hdisjoint,
      ← List.countP_eq_length_filter]
    rfl
  · refine ⟨rfl, ?_⟩
    rw [TagState.orphanCount, List.countP_append, List.countP_singleton,
      if_neg (mt beq_iff_eq.1 hname)]
    rfl

theorem counts_close_self (s : TagState) (location : TagLocation) :
    (s.close location).openCount location.tag = s.openCount location.tag - 1 ∧
      (s.close location).orphanCount location.tag =
        s.orphanCount location.tag + (1 - s.openCount location.tag) := by
  unfold TagState.close
  split
  · rename_i hopen
    constructor
    · rw [TagState.openCount, List.countP_eq_length_filter, filter_eraseP_of_imp (fun _ => id),
        List.length_eraseP, List.any_filter]
      simp only [Bool.and_self, hopen, if_true]
      rw [← List.countP_eq_length_filter]
      rfl
    · have hpos := (any_iff_openCount_pos s location.tag).1 hopen
      rw [Nat.sub_eq_zero_of_le hpos]
      rfl
  · rename_i hopen
    have hzero : s.openCount location.tag = 0 :=
      Nat.eq_zero_of_not_pos (mt (any_iff_openCount_pos s location.tag).2 hopen)
    rw [hzero]
    refine ⟨hzero, ?_⟩
    rw [TagState.orphanCount, List.countP_append, List.countP_singleton,
      if_pos (beq_self_eq_true _)]
    rfl

theorem counts_visit (s : TagState) (tag : Tag) (name : String) :
    (s.visit tag).openCount name =
        s.openCount name + (if tag.opens name then 1 else 0) -
          (if tag.closes name then 1 else 0) ∧
      (s.visit tag).orphanCount name =
        s.orphanCount name + ((if tag.closes name then 1 else 0) - s.openCount name) := by
  cases tag with
  | opening location =>
      refine ⟨?_, ?_⟩
      · exact List.countP_cons
      · exact (congrArg (s.orphanCount name + ·) (Nat.zero_sub _)).symm
  | closing location =>
      rw [TagState.visit]
      by_cases hname : location.tag = name
      · subst hname
        simpa only [Tag.opens, Tag.closes, Tag.isClosing, Tag.isOpening, Tag.name, Bool.false_and,
          Bool.true_and, beq_self_eq_true, Bool.false_eq_true, if_true, if_false, Nat.add_zero]
          using counts_close_self s location
      · simpa only [Tag.opens, Tag.closes, Tag.isClosing, Tag.isOpening, Tag.name, Bool.false_and,
          Bool.true_and, beq_eq_false_iff_ne.2 hname, Bool.false_eq_true, if_false, Nat.add_zero,
          Nat.zero_sub, Nat.sub_zero] using counts_close_of_ne s hname

theorem not_opens_of_closes {tag : Tag} {name : String} (h : tag.closes name = true) :
    ¬tag.opens name = true := by
  cases tag with
  | opening location => cases h
  | closing location => exact Bool.false_ne_true

/-- Tags enter and leave the stack in any order, but none gets lost: what was open and what was
opened is still open or was closed by a tag that is no orphan. -/
theorem counts_visitAll (s : TagState) (tags : List Tag) (name : String) :
    (s.visitAll tags).openCount name + s.orphanCount name + tags.countP (Tag.closes name) =
      s.openCount name + tags.countP (Tag.opens name) + (s.visitAll tags).orphanCount name := by
  induction tags generalizing s with
  | nil => exact Nat.add_right_comm _ _ _
  | cons tag rest ih =>
      have hrest := ih (s.visit tag)
      obtain ⟨hopen, horphan⟩ := counts_visit s tag name
      rw [List.countP_cons, List.countP_cons, visitAll_cons]
      by_cases hcloses : tag.closes name = true
      · rw [if_pos hcloses] at hopen horphan ⊢
        rw [if_neg (not_opens_of_closes hcloses)] at hopen ⊢
        omega
      · rw [if_neg hcloses] at hopen horphan ⊢
        omega

theorem orphanCount_le_visitAll (s : TagState) (tags : List Tag) (name : String) :
    s.orphanCount name ≤ (s.visitAll tags).orphanCount name := by
  induction tags generalizing s with
  | nil => exact Nat.le_refl _
  | cons tag rest ih =>
      refine Nat.le_trans ?_ (ih (s.visit tag))
      rw [(counts_visit s tag name).2]
      exact Nat.le_add_right _ _

/-! ## What the scan misses -/

theorem perm_openingsFirst (tags : List Tag) : (openingsFirst tags).Perm tags := by
  have hclosing : Tag.isClosing = fun tag => !tag.isOpening :=
    funext (fun tag => by cases tag <;> rfl)
  rw [openingsFirst, hclosing]
  exact List.filter_append_perm Tag.isOpening tags

theorem openCount_of_openings {tags : List Tag} (h : ∀ tag ∈ tags, tag.isOpening = true)
    (s : TagState) (name : String) :
    (s.visitAll tags).openCount name = s.openCount name + tags.countP (Tag.opens name) := by
  induction tags generalizing s with
  | nil => rfl
  | cons tag rest ih =>
      have hcloses : ¬tag.closes name = true := by
        cases tag with
        | opening location => exact Bool.false_ne_true
        | closing location => cases h _ List.mem_cons_self
      rw [visitAll_cons, ih (fun tag' h' => h tag' (List.mem_cons_of_mem _ h')),
        (counts_visit s tag name).1, if_neg hcloses, List.countP_cons]
      omega

theorem openCount_of_closings {tags : List Tag} (h : ∀ tag ∈ tags, tag.isClosing = true)
    (s : TagState) (name : String) :
    (s.visitAll tags).openCount name = s.openCount name - tags.countP (Tag.closes name) := by
  induction tags generalizing s with
  | nil => rfl
  | cons tag rest ih =>
      have hopens : ¬tag.opens name = true := by
        cases tag with
        | opening location => cases h _ List.mem_cons_self
        | closing location => exact Bool.false_ne_true
      rw [visitAll_cons, ih (fun tag' h' => h tag' (List.mem_cons_of_mem _ h')),
        (counts_visit s tag name).1, if_neg hopens, List.countP_cons]
      omega

theorem openCount_openingsFirst (s : TagState) (tags : List Tag) (name : String) :
    (s.visitAll (openingsFirst tags)).openCount name =
      s.openCount name + tags.countP (Tag.opens name) - tags.countP (Tag.closes name) := by
  have hopens : (tags.filter Tag.isOpening).countP (Tag.opens name) =
      tags.countP (Tag.opens name) := by
    rw [List.countP_filter]
    refine List.countP_congr (fun tag _ => ?_)
    rw [Tag.opens, Bool.and_right_comm, Bool.and_self]
  have hcloses : (tags.filter Tag.isClosing).countP (Tag.closes name) =
      tags.countP (Tag.closes name) := by
    rw [List.countP_filter]
    refine List.countP_congr (fun tag _ => ?_)
    rw [Tag.closes, Bool.and_right_comm, Bool.and_self]
  rw [openingsFirst, visitAll_append,
    openCount_of_closings (fun tag htag => (List.mem_filter.1 htag).2),
    openCount_of_openings (fun tag htag => (List.mem_filter.1 htag).2), hopens, hcloses]

/-- A state that differs from another by pairs that it misses: for each name, as many open tags
fewer as there are orphans fewer. -/
structure Misses (scan reference : TagState) : Prop where
  openCount_le (name : String) : scan.openCount name ≤ reference.openCount name
  pairs (name : String) :
    scan.openCount name + reference.orphanCount name =
      reference.openCount name + scan.orphanCount name

theorem Misses.refl (s : TagState) : Misses s s :=
  ⟨fun _ => Nat.le_refl _, fun _ => rfl⟩

theorem Misses.orphanCount_le {scan reference : TagState} (h : Misses scan reference)
    (name : String) : scan.orphanCount name ≤ reference.orphanCount name := by
  have hopen := h.openCount_le name
  have hpairs := h.pairs name
  omega

theorem Misses.visitAll {scan reference : TagState} (h : Misses scan reference)
    (tags : List Tag) :
    Misses (scan.visitAll (openingsFirst tags)) (reference.visitAll tags) := by
  have hcounts : ∀ name,
      (scan.visitAll (openingsFirst tags)).openCount name + scan.orphanCount name +
          tags.countP (Tag.closes name) =
        scan.openCount name + tags.countP (Tag.opens name) +
          (scan.visitAll (openingsFirst tags)).orphanCount name := by
    intro name
    rw [← (perm_openingsFirst tags).countP_eq, ← (perm_openingsFirst tags).countP_eq]
    exact counts_visitAll scan (openingsFirst tags) name
  constructor
  · -- no order leaves fewer open than the scan's, since orphans only become more
    intro name
    rw [openCount_openingsFirst]
    have hopen := h.openCount_le name
    have hreference := counts_visitAll reference tags name
    have horphans := orphanCount_le_visitAll reference tags name
    omega
  · -- and whatever the order, open tags and orphans differ by the same number
    intro name
    have hpairs := h.pairs name
    have hscan := hcounts name
    have hreference := counts_visitAll reference tags name
    omega

end CodeSurvey.Html
