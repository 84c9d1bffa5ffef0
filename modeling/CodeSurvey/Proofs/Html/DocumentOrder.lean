/-
# The tags of a document, from left to right

The patterns for opening and for closing tags are searched for one after the other.  Sorted by where
they begin, the tags of a line are what a reader meets on it, and those of all lines on one stack
are the reference (`inDocumentOrder`).

The scan moves the opening tags of each line to the front, so it misses pairs: a closing tag that
finds nothing open, and an opening tag of its name behind it on the same line.  That is all it
misses, and over settled lines the scan is the reference (`tags_in_document_order`).
-/
import Mathlib.Data.List.Sort
import CodeSurvey.Proofs.Html.Orderly
import CodeSurvey.Proofs.Pattern.Runs

namespace CodeSurvey.Html

open Text Pattern

/-! ## The tags of a line -/

/-- A tag with the offset that it begins at. -/
abbrev PlacedTag := Nat × Tag

/-- The tags of a line that the scan takes: first the opening ones, then the closing ones. -/
def placedTags (number : Nat) (line : Line) : List PlacedTag :=
  ((openPattern.findAll line).filter isPushed).map
      (fun m => (m.start, .opening ⟨nameOf m, number⟩)) ++
    (closePattern.findAll line).map (fun m => (m.start, .closing ⟨nameOf m, number⟩))

/-- The tags of a line, each where it begins. -/
def tagsOf (number : Nat) (line : Line) : List Tag :=
  ((placedTags number line).insertionSort (fun a b => a.1 ≤ b.1)).map Prod.snd

/-- The reference: the tags of all lines on one stack, from left to right. -/
def inDocumentOrder (lines : List Line) : TagState :=
  alone (eachLine tagsOf 1 lines)

theorem filter_insertionSort {α : Type} {r : α → α → Prop} [DecidableRel r] {keep : α → Bool}
    {l : List α} (h : (l.filter keep).Pairwise r) :
    (l.insertionSort r).filter keep = l.filter keep := by
  have hsublist : (l.filter keep).Sublist ((l.insertionSort r).filter keep) := by
    have hfilter := (List.sublist_insertionSort h List.filter_sublist).filter keep
    simpa only [List.filter_filter, Bool.and_self] using hfilter
  have hperm := (List.perm_insertionSort r l).filter keep
  exact (hsublist.eq_of_length hperm.length_eq.symm).symm

theorem filter_isOpening_placedTags (number : Nat) (line : Line) :
    (placedTags number line).filter (fun placed => placed.2.isOpening) =
      ((openPattern.findAll line).filter isPushed).map
        (fun m => (m.start, .opening ⟨nameOf m, number⟩)) := by
  rw [placedTags, List.filter_append, List.filter_map, List.filter_map]
  simp [Tag.isOpening, Function.comp_def]

theorem filter_isClosing_placedTags (number : Nat) (line : Line) :
    (placedTags number line).filter (fun placed => placed.2.isClosing) =
      (closePattern.findAll line).map (fun m => (m.start, .closing ⟨nameOf m, number⟩)) := by
  rw [placedTags, List.filter_append, List.filter_map, List.filter_map]
  simp [Tag.isClosing, Function.comp_def]

theorem filter_tagsOf {number : Nat} {line : Line} {keep : Tag → Bool} {found : List Match}
    {tag : Match → Tag}
    (hplaced : (placedTags number line).filter (fun placed => keep placed.2) =
      found.map (fun m => (m.start, tag m)))
    (hfound : found.Pairwise (fun m n => m.start < n.start)) :
    (tagsOf number line).filter keep = found.map tag := by
  have hpairwise : ((placedTags number line).filter (fun placed => keep placed.2)).Pairwise
      (fun a b => a.1 ≤ b.1) := by
    rw [hplaced, List.pairwise_map]
    exact hfound.imp Nat.le_of_lt
  calc (tagsOf number line).filter keep
      = (((placedTags number line).insertionSort (fun a b => a.1 ≤ b.1)).filter
          (fun placed => keep placed.2)).map Prod.snd := List.filter_map
    _ = (found.map (fun m => (m.start, tag m))).map Prod.snd := by
        rw [filter_insertionSort hpairwise, hplaced]
    _ = found.map tag := List.map_map

theorem readLine_eq (s : TagState) (number : Nat) (line : Line) :
    s.readLine number line = s.visitAll (openingsFirst (tagsOf number line)) := by
  have hopened := filter_tagsOf (filter_isOpening_placedTags number line)
    ((pairwise_findAll openPattern line).filter isPushed)
  have hclosed := filter_tagsOf (filter_isClosing_placedTags number line)
    (pairwise_findAll closePattern line)
  rw [readLine_eq_visitAll, scannedTags, openedTags, closedTags, List.map_map, List.map_map,
    openingsFirst, hopened, hclosed]
  rfl

/-! ## The whole document -/

theorem Misses.readLines {scan reference : TagState} (h : Misses scan reference) (number : Nat)
    (lines : List Line) :
    Misses (scan.readLines number lines) (reference.visitAll (eachLine tagsOf number lines)) := by
  induction lines generalizing scan reference number with
  | nil => exact h
  | cons line rest ih =>
      rw [TagState.readLines, eachLine, visitAll_append, readLine_eq]
      exact ih (h.visitAll (tagsOf number line)) (number + 1)

theorem readLines_of_settled (s : TagState) (number : Nat) {lines : List Line}
    (h : ∀ numbered ∈ lines.zipIdx number, Settled (tagsOf numbered.2 numbered.1)) :
    s.readLines number lines = s.visitAll (eachLine tagsOf number lines) := by
  induction lines generalizing s number with
  | nil => rfl
  | cons line rest ih =>
      rw [List.zipIdx_cons] at h
      rw [TagState.readLines, eachLine, visitAll_append, readLine_eq,
        settled_iff.1 (h (line, number) List.mem_cons_self) s]
      exact ih _ _ (fun numbered hmem => h numbered (List.mem_cons_of_mem _ hmem))

/-- **Where the scan keeps the order of the document.**  Of every source it reports what the
reference reports but for pairs of one name that it misses.  If each line of the source is settled,
it reports the same.  The settled lines are exactly those that it reads in order whatever is open,
and a line on which no name opens behind a closing tag, balanced names apart, is one of them. -/
theorem tags_in_document_order (source : String) :
    Misses ⟨(analyze source).unclosedTags.reverse, (analyze source).missingCloseTags⟩
        (inDocumentOrder (linesOf source)) ∧
      ((∀ numbered ∈ (linesOf source).zipIdx 1, Settled (tagsOf numbered.2 numbered.1)) →
        (analyze source).unclosedTags = (inDocumentOrder (linesOf source)).stack.reverse ∧
          (analyze source).missingCloseTags = (inDocumentOrder (linesOf source)).orphans) ∧
      (∀ number line, Settled (tagsOf number line) ↔
        ∀ s : TagState, s.readLine number line = s.visitAll (tagsOf number line)) ∧
      ∀ tags, Orderly tags → Settled tags := by
  refine ⟨?_, fun hsettled => ?_, fun number line => ?_, fun tags => Orderly.settled⟩
  · have hmisses := (Misses.refl ⟨[], []⟩).readLines 1 (linesOf source)
    rw [analyze, analyzeText, List.reverse_reverse]
    exact hmisses
  · have hreference : TagState.readLines ⟨[], []⟩ 1 (linesOf source) =
        inDocumentOrder (linesOf source) := readLines_of_settled _ 1 hsettled
    rw [← hreference]
    exact ⟨rfl, rfl⟩
  · simp only [settled_iff, readLine_eq]

/-- A list, a void element, and a line that opens one element and closes another. -/
def tidyLines : String := "<ul><li>one</li><li>two</li></ul>\n<br><p></div>"

/-- Nothing of it is missed. -/
theorem tidyLines_in_document_order :
    (analyze tidyLines).unclosedTags = (inDocumentOrder (linesOf tidyLines)).stack.reverse ∧
      (analyze tidyLines).missingCloseTags = (inDocumentOrder (linesOf tidyLines)).orphans := by
  have horderly : ∀ numbered ∈ (linesOf tidyLines).zipIdx 1,
      Orderly (tagsOf numbered.2 numbered.1) := by decide
  obtain ⟨-, hequal, -, hsettled⟩ := tags_in_document_order tidyLines
  exact hequal (fun numbered hmem => hsettled _ (horderly numbered hmem))

/-- A closing tag before the opening tag of its name on one line: the scan removes the tag that
opens behind it and reports nothing, the reference reports both. -/
theorem missed_pair_on_a_line :
    (analyze "</b><b>").unclosedTags = [] ∧ (analyze "</b><b>").missingCloseTags = [] ∧
      (inDocumentOrder (linesOf "</b><b>")).stack.reverse = [⟨"b", 1⟩] ∧
      (inDocumentOrder (linesOf "</b><b>")).orphans = [⟨"b", 1⟩] := by
  decide

end CodeSurvey.Html
