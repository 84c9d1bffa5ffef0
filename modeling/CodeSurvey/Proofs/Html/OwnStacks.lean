/-
# One stack for each tag name

Tags of all names share one stack, and a closing tag may take its own from the middle of it.  What
the stack holds of a name is still what a stack of that name alone would hold, on which a closing
tag takes off the top (`restrict_alone`).  So the verdict on a name is a matter of its own tags.

Entries come and go, but none changes its place among the others: what is left open and what finds
nothing open stands in the order in which it was read (`stack_sublist`, `orphans_sublist`).
-/
import CodeSurvey.Proofs.Html.Orderly
import CodeSurvey.Proofs.Text.Pieces

namespace CodeSurvey.Html

open Text

/-! ## A stack that looks at no names -/

/-- Read one tag without a look at its name: a closing tag takes off the top, or is an orphan. -/
def TagState.pile (s : TagState) : Tag → TagState
  | .opening location => s.push location
  | .closing location =>
    match s.stack with
    | _ :: below => { s with stack := below }
    | [] => { s with orphans := s.orphans ++ [location] }

def ownStack (tags : List Tag) : TagState :=
  tags.foldl TagState.pile ⟨[], []⟩

section OneName

variable {s : TagState} {name : String}

theorem visit_eq_pile (hstack : ∀ open' ∈ s.stack, open'.tag = name) {tag : Tag}
    (htag : tag.name = name) : s.visit tag = s.pile tag := by
  cases tag with
  | opening location => rfl
  | closing location =>
      rw [Tag.name] at htag
      rw [TagState.visit, TagState.close, TagState.pile]
      cases hs : s.stack with
      | nil => rfl
      | cons top below =>
          have htop : (top.tag == location.tag) = true := by
            rw [htag, hstack top (by rw [hs]; exact List.mem_cons_self)]
            exact beq_self_eq_true name
          have herase : (top :: below).eraseP (·.tag == location.tag) = below :=
            List.eraseP_cons_of_pos htop
          rw [List.any_cons, htop, Bool.true_or, if_pos rfl, herase]

theorem mem_stack_pile {tag : Tag} {open' : TagLocation} (h : open' ∈ (s.pile tag).stack) :
    open' ∈ s.stack ∨ tag = .opening open' := by
  cases tag with
  | opening location =>
      rcases List.mem_cons.1 h with rfl | h
      · exact .inr rfl
      · exact .inl h
  | closing location =>
      rw [TagState.pile] at h
      split at h
      · rename_i top below hs
        exact .inl (by rw [hs]; exact List.mem_cons_of_mem top h)
      · exact .inl h

theorem visitAll_eq_foldl_pile (hstack : ∀ open' ∈ s.stack, open'.tag = name) {tags : List Tag}
    (htags : ∀ tag ∈ tags, tag.name = name) : s.visitAll tags = tags.foldl TagState.pile s := by
  induction tags generalizing s with
  | nil => rfl
  | cons tag rest ih =>
      obtain ⟨htag, hrest⟩ := List.forall_mem_cons.1 htags
      rw [visitAll_cons, visit_eq_pile hstack htag]
      refine ih (fun open' hopen => ?_) hrest
      rcases mem_stack_pile hopen with hopen | rfl
      · exact hstack open' hopen
      · exact htag

/-- **The shared stack splits by name.** -/
theorem restrict_alone (tags : List Tag) (name : String) :
    (alone tags).restrict (· == name) = ownStack (tags.filter (fun tag => tag.name == name)) := by
  rw [alone, restrict_visitAll]
  have hnames : ∀ tag ∈ tags.filter (fun tag => tag.name == name), tag.name = name :=
    fun tag htag => beq_iff_eq.1 (List.mem_filter.1 htag).2
  exact visitAll_eq_foldl_pile (fun open' hopen => absurd hopen List.not_mem_nil) hnames

end OneName

/-! ## In the order of reading -/

def Tag.location : Tag → TagLocation
  | .opening location => location
  | .closing location => location

theorem stack_sublist (s : TagState) (tags : List Tag) :
    (s.visitAll tags).stack.reverse.Sublist
      (s.stack.reverse ++ (tags.filter Tag.isOpening).map Tag.location) := by
  induction tags generalizing s with
  | nil => exact List.sublist_append_left _ _
  | cons tag rest ih =>
      refine (ih (s.visit tag)).trans ?_
      cases tag with
      | opening location =>
          rw [TagState.visit, TagState.push, List.reverse_cons, List.append_assoc]
          exact List.Sublist.refl _
      | closing location =>
          refine List.Sublist.append_right (List.reverse_sublist.2 ?_) _
          rw [TagState.visit, TagState.close]
          split
          · exact List.eraseP_sublist
          · exact List.Sublist.refl _

theorem orphans_sublist (s : TagState) (tags : List Tag) :
    (s.visitAll tags).orphans.Sublist
      (s.orphans ++ (tags.filter Tag.isClosing).map Tag.location) := by
  induction tags generalizing s with
  | nil => exact List.sublist_append_left _ _
  | cons tag rest ih =>
      refine (ih (s.visit tag)).trans ?_
      cases tag with
      | opening location => exact List.Sublist.refl _
      | closing location =>
          have hlater : (Tag.closing location :: rest).filter Tag.isClosing =
              [Tag.closing location] ++ rest.filter Tag.isClosing := rfl
          rw [hlater, List.map_append, ← List.append_assoc]
          refine List.Sublist.append_right ?_ _
          rw [TagState.visit, TagState.close]
          split
          · exact List.sublist_append_left _ _
          · exact List.Sublist.refl _

theorem pairwise_eachLine {α : Type} {rule : Nat → Line → List α} {place : α → Nat}
    (h : ∀ number line, ∀ a ∈ rule number line, place a = number) (number : Nat)
    (lines : List Line) : (eachLine rule number lines).Pairwise (fun a b => place a ≤ place b) := by
  induction lines generalizing number with
  | nil => exact .nil
  | cons line rest ih =>
      refine List.pairwise_append.2 ⟨?_, ih (number + 1), ?_⟩
      · refine List.pairwise_of_forall_mem_list (fun a ha b hb => ?_)
        rw [h number line a ha, h number line b hb]
      · intro a ha b hb
        obtain ⟨i, other, -, hmem⟩ := mem_eachLine hb
        rw [h number line a ha, h _ other b hmem]
        omega

theorem line_of_mem_scannedTags (number : Nat) (line : Line) :
    ∀ tag ∈ scannedTags number line, tag.location.line = number := by
  intro tag htag
  rcases List.mem_append.1 htag with htag | htag
  · obtain ⟨location, hlocation, rfl⟩ := List.mem_map.1 htag
    obtain ⟨m, -, rfl⟩ := List.mem_map.1 hlocation
    rfl
  · obtain ⟨location, hlocation, rfl⟩ := List.mem_map.1 htag
    obtain ⟨m, -, rfl⟩ := List.mem_map.1 hlocation
    rfl

/-! ## The whole source -/

def scanOf (source : String) : List Tag :=
  eachLine scannedTags 1 (linesOf source)

theorem tags_of_analyze (source : String) :
    (analyze source).unclosedTags = (alone (scanOf source)).stack.reverse ∧
      (analyze source).missingCloseTags = (alone (scanOf source)).orphans := by
  rw [scanOf, alone, ← readLines_eq_visitAll]
  exact ⟨rfl, rfl⟩

def scanOfName (source : String) (name : String) : List Tag :=
  (scanOf source).filter (fun tag => tag.name == name)

/-- **One stack for each name.**  What a source leaves open of a name, and what closing tags of the
name find nothing open, are what its tags of that name leave on a stack of their own, so tags of
other names make no difference.  What was opened and the orphans are as many as what was closed and
what is left open.  Both lists keep the order of the lines. -/
theorem tags_on_own_stacks (source : String) :
    (∀ name,
      (analyze source).unclosedTags.filter (·.tag == name) =
          (ownStack (scanOfName source name)).stack.reverse ∧
        (analyze source).missingCloseTags.filter (·.tag == name) =
          (ownStack (scanOfName source name)).orphans ∧
        (scanOf source).countP (Tag.opens name) +
            (analyze source).missingCloseTags.countP (·.tag == name) =
          (scanOf source).countP (Tag.closes name) +
            (analyze source).unclosedTags.countP (·.tag == name)) ∧
    (∀ other name, scanOfName other name = scanOfName source name →
      (analyze other).unclosedTags.filter (·.tag == name) =
          (analyze source).unclosedTags.filter (·.tag == name) ∧
        (analyze other).missingCloseTags.filter (·.tag == name) =
          (analyze source).missingCloseTags.filter (·.tag == name)) ∧
    (analyze source).unclosedTags.Pairwise (fun a b => a.line ≤ b.line) ∧
      (analyze source).missingCloseTags.Pairwise (fun a b => a.line ≤ b.line) := by
  have hsplit : ∀ source name,
      (analyze source).unclosedTags.filter (·.tag == name) =
          (ownStack (scanOfName source name)).stack.reverse ∧
        (analyze source).missingCloseTags.filter (·.tag == name) =
          (ownStack (scanOfName source name)).orphans := by
    intro source name
    obtain ⟨hunclosed, hmissing⟩ := tags_of_analyze source
    rw [hunclosed, hmissing, scanOfName, ← restrict_alone, List.filter_reverse]
    exact ⟨rfl, rfl⟩
  obtain ⟨hunclosed, hmissing⟩ := tags_of_analyze source
  have hordered : ((scanOf source).map Tag.location).Pairwise (fun a b => a.line ≤ b.line) :=
    List.pairwise_map.2 (pairwise_eachLine line_of_mem_scannedTags 1 (linesOf source))
  refine ⟨fun name => ?_, fun other name hsame => ?_, ?_, ?_⟩
  · refine ⟨(hsplit source name).1, (hsplit source name).2, ?_⟩
    have hcounts := counts_visitAll ⟨[], []⟩ (scanOf source) name
    rw [hunclosed, hmissing, List.countP_reverse]
    have hzero : TagState.openCount ⟨[], []⟩ name = 0 ∧ TagState.orphanCount ⟨[], []⟩ name = 0 :=
      ⟨rfl, rfl⟩
    rw [hzero.1, hzero.2] at hcounts
    have hopen : (alone (scanOf source)).stack.countP (·.tag == name) =
        (alone (scanOf source)).openCount name := rfl
    have horphan : (alone (scanOf source)).orphans.countP (·.tag == name) =
        (alone (scanOf source)).orphanCount name := rfl
    rw [hopen, horphan, alone]
    omega
  · rw [(hsplit other name).1, (hsplit other name).2, hsame]
    exact ⟨(hsplit source name).1.symm, (hsplit source name).2.symm⟩
  · rw [hunclosed]
    refine hordered.sublist ((stack_sublist ⟨[], []⟩ (scanOf source)).trans ?_)
    exact List.filter_sublist.map Tag.location
  · rw [hmissing]
    refine hordered.sublist ((orphans_sublist ⟨[], []⟩ (scanOf source)).trans ?_)
    exact List.filter_sublist.map Tag.location

/-- A list with an element left open in it, over three lines. -/
def crossedLines : String := "<ul><li>one
<li>two</ul>
</li></ul>"

/-- Its items fare as they do without the list. -/
theorem crossedLines_by_name :
    scanOfName "<li>one
<li>two
</li>" "li" = scanOfName crossedLines "li" ∧
      (analyze crossedLines).unclosedTags.filter (·.tag == "li") = [⟨"li", 1⟩] ∧
      (analyze "<li>one
<li>two
</li>").unclosedTags.filter (·.tag == "li") =
        (analyze crossedLines).unclosedTags.filter (·.tag == "li") ∧
      (analyze crossedLines).missingCloseTags.filter (·.tag == "ul") = [⟨"ul", 3⟩] := by
  have hsame : scanOfName "<li>one
<li>two
</li>" "li" = scanOfName crossedLines "li" := by decide
  obtain ⟨hown, hothers, -⟩ := tags_on_own_stacks crossedLines
  refine ⟨hsame, ?_, (hothers _ _ hsame).1, ?_⟩
  · rw [(hown "li").1]
    decide
  · rw [(hown "ul").2.1]
    decide

end CodeSurvey.Html
