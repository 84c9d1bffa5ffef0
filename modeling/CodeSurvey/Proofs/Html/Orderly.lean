/-
# Lines that come out alike in both orders

What a line does to a stack is what it does alone, on top of what its orphans do to that stack
(`visitAll_eq_onTopOf`).  So two orders that agree on a line alone agree on it whatever is open: the
line is settled.

Which open tag a closing tag removes depends on its name alone, so tags of one name may be left out
without a change to the others.  Leaving out the names that a line opens and closes completely shows
that a line is settled if its other names are closed last (`Orderly.settled`).
-/
import CodeSurvey.Proofs.Html.Tags

namespace CodeSurvey.Html

/-! ## A line on top of what is open -/

/-- What a line leaves on a stack, from what it leaves alone: its orphans look for open tags
below. -/
def TagState.onTopOf (line below : TagState) : TagState :=
  { stack := line.stack ++ (line.orphans.foldl close below).stack
    orphans := (line.orphans.foldl close below).orphans }

theorem visit_onTopOf (line below : TagState) (tag : Tag) :
    (line.onTopOf below).visit tag = (line.visit tag).onTopOf below := by
  cases tag with
  | opening location => rfl
  | closing location =>
      simp only [TagState.visit, TagState.close, TagState.onTopOf, List.any_append]
      -- the tags of the line itself stand on top, so they are found before any below
      by_cases hline : line.stack.any (·.tag == location.tag) = true
      · obtain ⟨found, hfound, hname⟩ := List.any_eq_true.1 hline
        simp only [hline, Bool.true_or, if_true]
        rw [List.eraseP_append_left (p := (·.tag == location.tag)) hname _ hfound]
      · have hnone : ∀ found ∈ line.stack, ¬(found.tag == location.tag) = true :=
          fun found hfound hname => hline (List.any_eq_true.2 ⟨found, hfound, hname⟩)
        simp only [hline, Bool.false_or, Bool.false_eq_true, if_false, List.foldl_append,
          List.foldl_cons, List.foldl_nil]
        rw [List.eraseP_append_right _ hnone, TagState.close]
        split <;> rfl

/-- **A line acts on every stack as it acts alone**, its orphans apart. -/
theorem visitAll_eq_onTopOf (s : TagState) (tags : List Tag) :
    s.visitAll tags = (alone tags).onTopOf s := by
  -- over the tags, from any state that the line may have reached alone
  have hrun : ∀ line : TagState,
      (line.onTopOf s).visitAll tags = (line.visitAll tags).onTopOf s := by
    induction tags with
    | nil => exact fun _ => rfl
    | cons tag rest ih =>
        intro line
        have hstep := ih (line.visit tag)
        rw [← visit_onTopOf] at hstep
        exact hstep
  exact hrun ⟨[], []⟩

/-- A line that comes out alike in both orders when read alone. -/
def Settled (tags : List Tag) : Prop :=
  alone (openingsFirst tags) = alone tags

instance (tags : List Tag) : Decidable (Settled tags) :=
  inferInstanceAs (Decidable (_ = _))

/-- Then it comes out alike whatever is open. -/
theorem settled_iff {tags : List Tag} :
    Settled tags ↔ ∀ s : TagState, s.visitAll (openingsFirst tags) = s.visitAll tags := by
  constructor
  · intro h s
    rw [visitAll_eq_onTopOf, h, ← visitAll_eq_onTopOf]
  · intro h
    exact h ⟨[], []⟩

/-! ## Some names only -/

/-- What remains of a state when only some names count. -/
def TagState.restrict (s : TagState) (keep : String → Bool) : TagState :=
  { stack := s.stack.filter (fun tag => keep tag.tag)
    orphans := s.orphans.filter (fun tag => keep tag.tag) }

theorem restrict_visit_of_keep (s : TagState) {tag : Tag} {keep : String → Bool}
    (hkeep : keep tag.name = true) : (s.visit tag).restrict keep = (s.restrict keep).visit tag := by
  cases tag with
  | opening location =>
      rw [Tag.name] at hkeep
      simp only [TagState.visit, TagState.push, TagState.restrict, List.filter_cons, hkeep, if_true]
  | closing location =>
      rw [Tag.name] at hkeep
      have himp : ∀ tag : TagLocation, (tag.tag == location.tag) = true → keep tag.tag = true :=
        fun tag htag => by rw [beq_iff_eq.1 htag, hkeep]
      have hany : (s.restrict keep).stack.any (·.tag == location.tag) =
          s.stack.any (·.tag == location.tag) := by
        rw [TagState.restrict, List.any_filter]
        refine List.any_congr rfl (fun tag => ?_)
        cases htag : tag.tag == location.tag with
        | false => rw [Bool.and_false]
        | true => rw [himp tag htag, Bool.and_true]
      rw [TagState.visit, TagState.visit, TagState.close, TagState.close, hany]
      split
      · simp only [TagState.restrict, filter_eraseP_of_imp himp]
      · simp only [TagState.restrict, List.filter_append, List.filter_cons, hkeep, if_true,
          List.filter_nil]

theorem restrict_visit_of_drop (s : TagState) {tag : Tag} {keep : String → Bool}
    (hdrop : keep tag.name = false) : (s.visit tag).restrict keep = s.restrict keep := by
  cases tag with
  | opening location =>
      rw [Tag.name] at hdrop
      simp only [TagState.visit, TagState.push, TagState.restrict, List.filter_cons, hdrop,
        Bool.false_eq_true, if_false]
  | closing location =>
      rw [Tag.name] at hdrop
      have himp : ∀ tag : TagLocation,
          (tag.tag == location.tag) = true → keep tag.tag = false :=
        fun tag htag => by rw [beq_iff_eq.1 htag, hdrop]
      rw [TagState.visit, TagState.close]
      split
      · simp only [TagState.restrict, filter_eraseP_of_disjoint himp]
      · simp only [TagState.restrict, List.filter_append, List.filter_cons, hdrop,
          Bool.false_eq_true, if_false, List.filter_nil, List.append_nil]

/-- Tags of names that do not count may be left out. -/
theorem restrict_visitAll (s : TagState) (tags : List Tag) (keep : String → Bool) :
    (s.visitAll tags).restrict keep =
      (s.restrict keep).visitAll (tags.filter (fun tag => keep tag.name)) := by
  induction tags generalizing s with
  | nil => rfl
  | cons tag rest ih =>
      rw [visitAll_cons, ih, List.filter_cons]
      cases hkeep : keep tag.name with
      | true => rw [restrict_visit_of_keep s hkeep]; rfl
      | false => rw [restrict_visit_of_drop s hkeep]; rfl

/-- If none of the names that do not count has left anything, nothing is lost. -/
theorem restrict_eq_self {s : TagState} {keep : String → Bool}
    (h : ∀ name, keep name = false → s.openCount name = 0 ∧ s.orphanCount name = 0) :
    s.restrict keep = s := by
  have hkeep : ∀ (tags : List TagLocation),
      (∀ name, keep name = false → tags.countP (·.tag == name) = 0) →
        tags.filter (fun tag => keep tag.tag) = tags := by
    intro tags hzero
    refine List.filter_eq_self.2 (fun tag htag => ?_)
    cases hname : keep tag.tag with
    | true => rfl
    | false =>
        exact absurd (beq_self_eq_true tag.tag) (List.countP_eq_zero.1 (hzero _ hname) tag htag)
  rw [TagState.restrict, hkeep _ (fun name hname => (h name hname).1),
    hkeep _ (fun name hname => (h name hname).2)]

/-! ## Orderly lines -/

/-- A closing tag that stands before an opening tag of its name. -/
def Tag.Crosses (first last : Tag) : Prop :=
  first.isClosing = true ∧ last.isOpening = true ∧ last.name = first.name

instance (first last : Tag) : Decidable (first.Crosses last) :=
  inferInstanceAs (Decidable (_ ∧ _))

def ClosesLast (name : String) (tags : List Tag) : Prop :=
  tags.Pairwise (fun first last => first.name = name → ¬first.Crosses last)

/-- Every closing tag of a name finds an opening one on the line, and leaves none open. -/
def Balanced (name : String) (tags : List Tag) : Prop :=
  (alone tags).openCount name = 0 ∧ (alone tags).orphanCount name = 0

/-- Each name of a line is closed behind all its opening tags, or balanced. -/
def Orderly (tags : List Tag) : Prop :=
  ∀ tag ∈ tags, ClosesLast tag.name tags ∨ Balanced tag.name tags

instance (name : String) (tags : List Tag) : Decidable (ClosesLast name tags) :=
  inferInstanceAs (Decidable (List.Pairwise _ _))

instance (name : String) (tags : List Tag) : Decidable (Balanced name tags) :=
  inferInstanceAs (Decidable (_ ∧ _))

instance (tags : List Tag) : Decidable (Orderly tags) :=
  inferInstanceAs (Decidable (∀ _ ∈ _, _))

theorem visitAll_close_comm (s : TagState) (location : TagLocation) {openings : List Tag}
    (h : ∀ tag ∈ openings, tag.isOpening = true ∧ tag.name ≠ location.tag) :
    (s.close location).visitAll openings = (s.visitAll openings).close location := by
  induction openings generalizing s with
  | nil => rfl
  | cons tag rest ih =>
      obtain ⟨hopening, hname⟩ := h tag List.mem_cons_self
      have hstep : (s.close location).visit tag = (s.visit tag).close location := by
        cases tag with
        | closing location' => cases hopening
        | opening location' =>
            have hother : (location'.tag == location.tag) = false := beq_eq_false_iff_ne.2 hname
            simp only [TagState.visit, TagState.push, TagState.close, List.any_cons, hother,
              Bool.false_or, List.eraseP_cons, cond_false]
            split <;> rfl
      rw [visitAll_cons, hstep, ih _ (fun tag' h' => h tag' (List.mem_cons_of_mem _ h')),
        visitAll_cons]

theorem visitAll_openingsFirst_of_pairwise {tags : List Tag}
    (h : tags.Pairwise (fun first last => ¬first.Crosses last)) (s : TagState) :
    s.visitAll (openingsFirst tags) = s.visitAll tags := by
  induction h generalizing s with
  | nil => rfl
  | @cons tag rest hfirst _ ih =>
      rw [visitAll_cons, ← ih]
      cases tag with
      | opening location => rfl
      | closing location =>
          have hopenings : ∀ tag ∈ rest.filter Tag.isOpening,
              tag.isOpening = true ∧ tag.name ≠ location.tag := by
            intro tag htag
            obtain ⟨hmem, hopening⟩ := List.mem_filter.1 htag
            exact ⟨hopening, fun hname => hfirst tag hmem ⟨rfl, hopening, hname⟩⟩
          rw [openingsFirst, visitAll_append, openingsFirst, visitAll_append, TagState.visit,
            visitAll_close_comm s location hopenings]
          rfl

theorem openingsFirst_filter (tags : List Tag) (keep : Tag → Bool) :
    openingsFirst (tags.filter keep) = (openingsFirst tags).filter keep := by
  rw [openingsFirst, openingsFirst, List.filter_append, List.filter_comm Tag.isOpening,
    List.filter_comm Tag.isClosing]

/-- Names that are balanced leave nothing in either order, so they may be left out. -/
theorem settled_of_keep {tags : List Tag} (keep : String → Bool)
    (hbalanced : ∀ name, keep name = false → Balanced name tags)
    (hpairwise : (tags.filter (fun tag => keep tag.name)).Pairwise
      (fun first last => ¬first.Crosses last)) : Settled tags := by
  have hmisses : Misses (alone (openingsFirst tags)) (alone tags) :=
    (Misses.refl _).visitAll tags
  have hscan : (alone (openingsFirst tags)).restrict keep = alone (openingsFirst tags) := by
    refine restrict_eq_self (fun name hname => ?_)
    obtain ⟨hopen, horphan⟩ := hbalanced name hname
    exact ⟨Nat.le_zero.1 (hopen ▸ hmisses.openCount_le name),
      Nat.le_zero.1 (horphan ▸ hmisses.orphanCount_le name)⟩
  -- what is left out leaves nothing behind in either order, and the rest does not cross
  calc alone (openingsFirst tags)
      = (alone (openingsFirst tags)).restrict keep := hscan.symm
    _ = alone ((openingsFirst tags).filter (fun tag => keep tag.name)) := restrict_visitAll _ _ _
    _ = alone (openingsFirst (tags.filter (fun tag => keep tag.name))) := by
        rw [openingsFirst_filter]
    _ = alone (tags.filter (fun tag => keep tag.name)) :=
        visitAll_openingsFirst_of_pairwise hpairwise _
    _ = (alone tags).restrict keep := (restrict_visitAll ⟨[], []⟩ tags keep).symm
    _ = alone tags := restrict_eq_self hbalanced

/-- **Orderly lines are settled.**  The names that are not balanced are closed last. -/
theorem Orderly.settled {tags : List Tag} (h : Orderly tags) : Settled tags := by
  refine settled_of_keep (fun name => !decide (Balanced name tags)) (fun name hname => ?_) ?_
  · rwa [Bool.not_eq_false', decide_eq_true_iff] at hname
  · refine List.pairwise_iff_forall_sublist.2 (fun {first last} hpair => ?_)
    obtain ⟨hmem, hkeep⟩ := List.mem_filter.1 (hpair.subset List.mem_cons_self)
    rw [Bool.not_eq_true', decide_eq_false_iff_not] at hkeep
    have hclosesLast : ClosesLast first.name tags := (h first hmem).resolve_right hkeep
    exact List.pairwise_iff_forall_sublist.1 hclosesLast (hpair.trans List.filter_sublist) rfl

end CodeSurvey.Html
