/-
# Names up to the hyphen

The pattern for opening tags takes a name up to its first hyphen and lets the rest of the tag be
what it is; the pattern for closing tags finds no tag where a hyphen stands.  So an element with a
hyphen in its name is never closed, and what it leaves open has the part of its name before the
hyphen.  A closing tag of that part is taken for its own.
-/
import CodeSurvey.Proofs.Html.Documents

namespace CodeSurvey.Html

open Text

/-- Two tags around a document, whatever their names. -/
def tagsAround (opening : OpeningTag) (content : Document) (closing : ClosingTag) : List Piece :=
  .opening opening :: (content.pieces ++ [.closing closing])

def sourceAround (opening : OpeningTag) (content : Document) (closing : ClosingTag) : String :=
  String.ofList (textOf (tagsAround opening content closing))

theorem tagsOn_tagsAround (number : Nat) (opening : OpeningTag) (content : Document)
    (closing : ClosingTag) (h : opening.isPushed = true) :
    tagsOn number (tagsAround opening content closing) =
      [.opening ⟨opening.name.entry, number⟩] ++ tagsOn number content.pieces ++
        ((Piece.closing closing).tag? number).toList := by
  rw [tagsAround, tagsOn_cons, Piece.tag?, if_pos h, tagsOn_append, tagsOn_cons, List.append_assoc]
  exact congrArg _ (congrArg _ (List.append_nil _))

/-- What stays open from left to right stays open for the scan, if nothing of its name is an
orphan. -/
theorem unclosedTags_ne_nil {pieces : List Piece} {name : String}
    (hopen : (alone (tagsOn 1 pieces)).openCount name = 1)
    (horphan : (alone (tagsOn 1 pieces)).orphanCount name = 0) :
    (analyze (String.ofList (textOf pieces))).unclosedTags ≠ [] := by
  have hcount := (counts_of_pieces (.inr horphan)).1
  intro hnil
  rw [hnil, hopen] at hcount
  cases hcount

section Around

variable {opening : OpeningTag} {content : Document} {closing : ClosingTag}
  (hopening : opening.isPushed = true) (hcontent : content.leftOpen = [])

include hopening hcontent

theorem not_closed_around (hother : closing.name.hyphenated = true ∨
      closing.name.entry ≠ opening.name.entry) :
    (analyze (sourceAround opening content closing)).unclosedTags ≠ [] := by
  have htags := tagsOn_tagsAround 1 opening content closing hopening
  have hinside : Leaves (tagsOn 1 content.pieces) [] := hcontent ▸ leaves_document 1 content
  obtain ⟨hopen, horphan⟩ :=
    (Leaves.opening 1 opening.name.entry).append hinside ⟨[], []⟩ opening.name.entry
  rw [List.append_nil, List.count_singleton_self] at hopen
  cases hclosing : closing.name.hyphenated with
  | true =>
      rw [Piece.tag?, if_pos hclosing, Option.toList_none, List.append_nil] at htags
      rw [← htags] at hopen horphan
      exact unclosedTags_ne_nil hopen horphan
  | false =>
      rw [Piece.tag?, hclosing, if_neg Bool.false_ne_true, Option.toList_some] at htags
      have hname : closing.name.entry ≠ opening.name.entry := by
        rw [hclosing] at hother
        exact hother.resolve_left Bool.false_ne_true
      have hlocation : (⟨closing.name.entry, 1⟩ : TagLocation).tag ≠ opening.name.entry := hname
      obtain ⟨hsame, hsameOrphans⟩ := counts_close_of_ne
        (alone ([.opening ⟨opening.name.entry, 1⟩] ++ tagsOn 1 content.pieces)) hlocation
      have hclose : alone (tagsOn 1 (tagsAround opening content closing)) =
          (alone ([.opening ⟨opening.name.entry, 1⟩] ++ tagsOn 1 content.pieces)).close
            ⟨closing.name.entry, 1⟩ := by
        rw [htags, alone, visitAll_append]
        rfl
      rw [← hclose] at hsame hsameOrphans
      exact unclosedTags_ne_nil (hsame.trans hopen) (hsameOrphans.trans horphan)

theorem closed_around (hclosing : closing.name.hyphenated = false)
    (hname : closing.name.entry = opening.name.entry) :
    (analyze (sourceAround opening content closing)).unclosedTags = [] ∧
      (analyze (sourceAround opening content closing)).missingCloseTags = [] := by
  have htags := tagsOn_tagsAround 1 opening content closing hopening
  have hinside : Leaves (tagsOn 1 content.pieces) [] := hcontent ▸ leaves_document 1 content
  have hleaves := hinside.within 1 opening.name.entry
  rw [Piece.tag?, hclosing, if_neg Bool.false_ne_true, Option.toList_some, hname] at htags
  rw [← htags] at hleaves
  obtain ⟨hmissing, hnone⟩ := analyze_of_leaves hleaves
  exact ⟨eq_nil_of_perm hnone, hmissing⟩

theorem clean_around_iff :
    (analyze (sourceAround opening content closing)).unclosedTags = [] ∧
        (analyze (sourceAround opening content closing)).missingCloseTags = [] ↔
      closing.name.hyphenated = false ∧ closing.name.lower = lowerAscii opening.name.front := by
  cases hclosing : closing.name.hyphenated with
  | true =>
      exact iff_of_false
        (fun hclean => not_closed_around hopening hcontent (.inl hclosing) hclean.1)
        (fun hsame => Bool.false_ne_true hsame.1.symm)
  | false =>
      have hentry : closing.name.entry = opening.name.entry ↔
          closing.name.lower = lowerAscii opening.name.front := by
        rw [closing.name.entry_eq hclosing, TagName.entry, String.ofList_inj]
      rw [← hentry, and_iff_right rfl]
      constructor
      · intro hclean
        by_contra hname
        exact not_closed_around hopening hcontent (.inr hname) hclean.1
      · exact closed_around hopening hcontent hclosing

end Around

theorem leftOpen_eq_nil {d : Document} (h : (analyze d.source).unclosedTags = []) :
    d.leftOpen = [] := by
  have hperm := (analyze_document d).2
  rw [h] at hperm
  exact List.nil_perm.1 hperm

/-- **An element is known by its name up to the hyphen.**  Closed by its own name around a document,
it has no orphan, and it adds to what is left open the part of its name before the first hyphen, if
it has a hyphen and that part is not the name of a void element; otherwise it adds nothing.  Around
clean content its tag is closed by the closing tags of that part, and by no others: by none of its
own name, if that has a hyphen. -/
theorem known_up_to_the_hyphen (opening : OpeningTag) (content : Document) (closing : ClosingTag)
    (hvoid : opening.name.isVoid = false) (hopen : opening.closesItself = false) :
    (closing.name.lower = opening.name.lower →
      (analyze (sourceAround opening content closing)).missingCloseTags = [] ∧
        ((analyze (sourceAround opening content closing)).unclosedTags.map TagLocation.tag).Perm
          (opening.name.leftOpen ++
            (analyze content.source).unclosedTags.map TagLocation.tag)) ∧
    (opening.isPushed = true → (analyze content.source).unclosedTags = [] →
      ((analyze (sourceAround opening content closing)).unclosedTags = [] ∧
          (analyze (sourceAround opening content closing)).missingCloseTags = [] ↔
        closing.name.hyphenated = false ∧
          closing.name.lower = lowerAscii opening.name.front)) := by
  refine ⟨fun hsame => ?_, fun hopening hcontent => ?_⟩
  · obtain ⟨hmissing, hleft⟩ :=
      analyze_document (.element ⟨opening, closing, hvoid, hopen, hsame⟩ content .nothing)
    rw [Document.leftOpen, Document.leftOpen, List.append_nil] at hleft
    exact ⟨hmissing, hleft.trans ((analyze_document content).2.symm.append_left _)⟩
  · exact clean_around_iff hopening (leftOpen_eq_nil hcontent)

def cardTag : OpeningTag :=
  ⟨⟨"my-card".toList, rfl, rfl⟩, ⟨" id=\"c\"".toList, rfl, rfl⟩⟩

/-- The part of its name before the hyphen closes it. -/
theorem cardTag_closed_by_part :
    (analyze "<my-card id=\"c\">x</My>").unclosedTags = [] ∧
      (analyze "<my-card id=\"c\">x</My>").missingCloseTags = [] := by
  have hpart := known_up_to_the_hyphen cardTag (.char 'x' (by decide) .nothing)
    ⟨⟨"My".toList, rfl, rfl⟩, ⟨[], rfl⟩⟩ rfl rfl
  have hclean := (hpart.2 rfl rfl).2 ⟨rfl, rfl⟩
  exact hclean

/-- Its own name does not close it. -/
theorem cardTag_not_closed_by_name :
    (analyze "<my-card></my-card>").unclosedTags = [⟨"my", 1⟩] ∧
      (analyze "<my-card></my>").unclosedTags = [] ∧
      (analyze "<my-card></my>").missingCloseTags = [] := by
  decide

end CodeSurvey.Html
