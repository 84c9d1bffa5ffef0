/-
# Well-formed documents

A document is text, void elements, self-closing tags and elements around documents.  Read from left
to right on one stack, an element takes away what it puts there, so a document leaves the stack as
it was (`counts_document`).  The scan reads the tags of a line in another order, but what it misses
it misses in pairs, and where the reference has no orphan there is no pair to miss.

An element whose name has a hyphen is not closed: its closing tag is not read, and the part of the
name before the hyphen stays open unless it is the name of a void element (`Document.leftOpen`).
-/
import CodeSurvey.Proofs.Html.OwnStacks
import CodeSurvey.Proofs.Html.Pieces
import CodeSurvey.Proofs.Text.Endings

namespace CodeSurvey.Html

open Text

/-! ## Lines of pieces -/

def Piece.isBreak : Piece → Bool
  | char c _ => c == '\r' || c == '\n'
  | opening _ => false
  | closing _ => false

theorem Piece.isPlain {piece : Piece} (h : piece.isBreak = false) : IsPlain piece.text := by
  have hbracketed : ∀ text, Bracketed text → IsPlain text := by
    rintro text ⟨inner, rfl, hinner⟩
    simp only [IsPlain, List.mem_cons, List.mem_append, List.not_mem_nil, or_false, not_or]
    exact ⟨⟨by decide, fun hmem => (hinner _ hmem).2.1 rfl, by decide⟩,
      by decide, fun hmem => (hinner _ hmem).2.2 rfl, by decide⟩
  cases piece with
  | char c plain =>
      rw [isBreak, Bool.or_eq_false_iff, beq_eq_false_iff_ne, beq_eq_false_iff_ne] at h
      exact isPlain_nil.cons h.1 h.2
  | opening tag => exact hbracketed _ tag.bracketed
  | closing tag => exact hbracketed _ tag.bracketed

/-- **Pieces are read as lines of pieces.**  Breaks stand between lines, and nothing else is
lost. -/
theorem exists_lines_textOf (pieces : List Piece) :
    ∃ lines : List (List Piece), splitLines (unifyEndings (textOf pieces)) = lines.map textOf ∧
      lines.flatten = pieces.filter (fun piece => !piece.isBreak) := by
  induction pieces with
  | nil => exact ⟨[[]], rfl, rfl⟩
  | cons piece pieces ih =>
      obtain ⟨lines, hlines, hflatten⟩ := ih
      rw [textOf_cons]
      cases hbreak : piece.isBreak with
      | false =>
          -- the piece stands in front of the first line
          obtain ⟨hreturn, hnewline⟩ := Piece.isPlain hbreak
          have hne : lines ≠ [] := by
            rintro rfl
            exact splitLines_ne_nil _ hlines
          obtain ⟨first, others, rfl⟩ := List.exists_cons_of_ne_nil hne
          refine ⟨(piece :: first) :: others, ?_, ?_⟩
          · rw [unifyEndings_plain hreturn, splitLines_append hnewline, hlines]
            rfl
          · rw [List.filter_cons_of_pos (by rw [hbreak]; rfl), ← hflatten]
            rfl
      | true =>
          rw [List.filter_cons_of_neg (by rw [hbreak]; exact Bool.false_ne_true)]
          cases piece with
          | opening tag => cases hbreak
          | closing tag => cases hbreak
          | char c plain =>
              rw [Piece.isBreak, Bool.or_eq_true, beq_iff_eq, beq_iff_eq] at hbreak
              by_cases hpair : c = '\r' ∧ (textOf pieces).head? = some '\n'
              · -- a return in front of a newline is one break with it
                obtain ⟨rfl, hhead⟩ := hpair
                obtain ⟨rest, hrest⟩ := List.head?_eq_some_iff.1 hhead
                refine ⟨lines, ?_, hflatten⟩
                rw [← hlines, hrest, unifyEndings_cons (by decide)]
                rfl
              · refine ⟨[] :: lines, ?_, hflatten⟩
                have hunified : unifyEndings ([c] ++ textOf pieces) =
                    '\n' :: unifyEndings (textOf pieces) := by
                  rcases hbreak with rfl | rfl
                  · exact unifyEndings_ending .loneReturn (fun _ hhead => hpair ⟨rfl, hhead⟩)
                  · exact unifyEndings_ending .newline (fun h => absurd h (by decide))
                rw [Piece.text, hunified, splitLines_newline, hlines]
                rfl

/-! ## Tags wherever they stand -/

/-- What a tag does, whatever line it stands on. -/
def Tag.key (tag : Tag) : Bool × String := (tag.isOpening, tag.name)

theorem Tag.opens_eq_key (name : String) (tag : Tag) :
    tag.opens name = (tag.key.1 && tag.key.2 == name) := rfl

theorem Tag.closes_eq_key (name : String) (tag : Tag) :
    tag.closes name = (!tag.key.1 && tag.key.2 == name) := by
  cases tag <;> rfl

theorem counts_congr {tags others : List Tag} (h : tags.map Tag.key = others.map Tag.key)
    {s t : TagState} {name : String} (hopen : s.openCount name = t.openCount name)
    (horphan : s.orphanCount name = t.orphanCount name) :
    (s.visitAll tags).openCount name = (t.visitAll others).openCount name ∧
      (s.visitAll tags).orphanCount name = (t.visitAll others).orphanCount name := by
  induction tags generalizing others s t with
  | nil =>
      rw [List.map_eq_nil_iff.1 h.symm]
      exact ⟨hopen, horphan⟩
  | cons tag rest ih =>
      obtain ⟨other, others, rfl, hkey, hrest⟩ := List.map_eq_cons_iff.1 h.symm
      rw [visitAll_cons, visitAll_cons]
      refine ih hrest.symm ?_ ?_
      · rw [(counts_visit s tag name).1, (counts_visit t other name).1, hopen, Tag.opens_eq_key,
          Tag.opens_eq_key, Tag.closes_eq_key, Tag.closes_eq_key, hkey]
      · rw [(counts_visit s tag name).2, (counts_visit t other name).2, hopen, horphan,
          Tag.closes_eq_key, Tag.closes_eq_key, hkey]

def tagsFrom (number : Nat) : List (List Piece) → List Tag
  | [] => []
  | line :: rest => tagsOn number line ++ tagsFrom (number + 1) rest

theorem Misses.pieces {scan reference : TagState} (h : Misses scan reference) (number : Nat)
    (lines : List (List Piece)) :
    Misses (scan.visitAll (eachLine scannedTags number (lines.map textOf)))
      (reference.visitAll (tagsFrom number lines)) := by
  induction lines generalizing scan reference number with
  | nil => exact h
  | cons line rest ih =>
      rw [List.map_cons, eachLine, scannedTags_textOf, tagsFrom, visitAll_append, visitAll_append]
      exact ih (h.visitAll (tagsOn number line)) (number + 1)

theorem key_tag? (number other : Nat) (piece : Piece) :
    (piece.tag? number).map Tag.key = (piece.tag? other).map Tag.key := by
  cases piece with
  | char c plain => rfl
  | opening tag =>
      rw [Piece.tag?, Piece.tag?]
      split <;> rfl
  | closing tag =>
      rw [Piece.tag?, Piece.tag?]
      split <;> rfl

theorem map_key_tagsOn (number other : Nat) (pieces : List Piece) :
    (tagsOn number pieces).map Tag.key = (tagsOn other pieces).map Tag.key := by
  rw [tagsOn, tagsOn, List.map_filterMap, List.map_filterMap]
  exact List.filterMap_congr (fun piece _ => key_tag? number other piece)

theorem map_key_tagsFrom (number : Nat) (lines : List (List Piece)) :
    (tagsFrom number lines).map Tag.key = (tagsOn 1 lines.flatten).map Tag.key := by
  induction lines generalizing number with
  | nil => rfl
  | cons line rest ih =>
      rw [tagsFrom, List.map_append, ih, map_key_tagsOn number 1, List.flatten_cons, tagsOn_append,
        List.map_append]

theorem tagsOn_filter (number : Nat) (pieces : List Piece) :
    tagsOn number (pieces.filter (fun piece => !piece.isBreak)) = tagsOn number pieces := by
  rw [tagsOn, List.filterMap_filter]
  refine List.filterMap_congr (fun piece _ => ?_)
  cases piece with
  | char c plain => exact ite_self none
  | opening tag => rfl
  | closing tag => rfl

/-- **What the scan finds of pieces**, but for pairs that it misses, is what their tags leave from
left to right. -/
theorem misses_of_pieces (pieces : List Piece) :
    Misses (alone (scanOf (String.ofList (textOf pieces)))) (alone (tagsOn 1 pieces)) := by
  obtain ⟨lines, hlines, hflatten⟩ := exists_lines_textOf pieces
  have hscan : scanOf (String.ofList (textOf pieces)) =
      eachLine scannedTags 1 (lines.map textOf) := by
    rw [scanOf, linesOf, String.toList_ofList, hlines]
  have hmisses : Misses (alone (scanOf (String.ofList (textOf pieces))))
      (alone (tagsFrom 1 lines)) := by
    rw [hscan]
    exact (Misses.refl ⟨[], []⟩).pieces 1 lines
  have hkeys : (tagsFrom 1 lines).map Tag.key = (tagsOn 1 pieces).map Tag.key := by
    rw [map_key_tagsFrom, hflatten, tagsOn_filter]
  have hcounts : ∀ name,
      (alone (tagsFrom 1 lines)).openCount name = (alone (tagsOn 1 pieces)).openCount name ∧
        (alone (tagsFrom 1 lines)).orphanCount name =
          (alone (tagsOn 1 pieces)).orphanCount name :=
    fun name => counts_congr hkeys rfl rfl
  constructor
  · intro name
    rw [← (hcounts name).1]
    exact hmisses.openCount_le name
  · intro name
    rw [← (hcounts name).1, ← (hcounts name).2]
    exact hmisses.pairs name

theorem incompleteTags_of_pieces (pieces : List Piece) :
    (analyze (String.ofList (textOf pieces))).incompleteTags = [] := by
  obtain ⟨lines, hlines, -⟩ := exists_lines_textOf pieces
  have hnone : ∀ (number : Nat) (lines : List (List Piece)),
      eachLine incomplete number (lines.map textOf) = [] := by
    intro number lines
    induction lines generalizing number with
    | nil => rfl
    | cons line rest ih => rw [List.map_cons, eachLine, incomplete_textOf, ih, List.nil_append]
  rw [analyze, String.toList_ofList, analyzeText, hlines]
  exact hnone 1 lines

/-! ## Documents -/

/-- The tags of an element: the opening one leaves it open, and the closing one has the same name up
to case. -/
structure TagPair where
  opening : OpeningTag
  closing : ClosingTag
  notVoid : opening.name.isVoid = false
  leavesOpen : opening.closesItself = false
  sameName : closing.name.lower = opening.name.lower

/-- A well-formed document. -/
inductive Document where
  | nothing
  /-- A character of text, line breaks included. -/
  | char (c : Char) (plain : c ≠ '<' ∧ c ≠ '>') (rest : Document)
  | void (tag : OpeningTag) (void : tag.name.isVoid = true) (rest : Document)
  | selfClosing (tag : OpeningTag) (closes : tag.closesItself = true) (rest : Document)
  | element (tags : TagPair) (content rest : Document)

namespace Document

def pieces : Document → List Piece
  | nothing => []
  | char c plain rest => .char c plain :: rest.pieces
  | void tag _ rest => .opening tag :: rest.pieces
  | selfClosing tag _ rest => .opening tag :: rest.pieces
  | element tags content rest =>
    .opening tags.opening :: (content.pieces ++ .closing tags.closing :: rest.pieces)

def source (d : Document) : String := String.ofList (textOf d.pieces)

/-- Whether no element of a document has a hyphen in its name. -/
def IsPlain : Document → Prop
  | nothing => True
  | char _ _ rest => rest.IsPlain
  | void _ _ rest => rest.IsPlain
  | selfClosing _ _ rest => rest.IsPlain
  | element tags content rest =>
    tags.opening.name.hyphenated = false ∧ content.IsPlain ∧ rest.IsPlain

end Document

def TagName.leftOpen (name : TagName) : List String :=
  if name.hyphenated ∧ name.entry ∉ voidElements then [name.entry] else []

theorem TagName.leftOpen_of_not_hyphenated {name : TagName} (h : name.hyphenated = false) :
    name.leftOpen = [] := by
  rw [leftOpen, h, if_neg (fun hboth => Bool.false_ne_true hboth.1)]

def Document.leftOpen : Document → List String
  | nothing => []
  | char _ _ rest => rest.leftOpen
  | void _ _ rest => rest.leftOpen
  | selfClosing _ _ rest => rest.leftOpen
  | element tags content rest =>
    tags.opening.name.leftOpen ++ content.leftOpen ++ rest.leftOpen

/-! ## What tags leave open -/

/-- Tags that leave some names open, whatever was open before, and find an open tag for each closing
one. -/
def Leaves (tags : List Tag) (names : List String) : Prop :=
  ∀ (s : TagState) (name : String),
    (s.visitAll tags).openCount name = s.openCount name + names.count name ∧
      (s.visitAll tags).orphanCount name = s.orphanCount name

namespace Leaves

theorem nil : Leaves [] [] := fun _ _ => ⟨rfl, rfl⟩

theorem append {front back : List Tag} {names others : List String} (h : Leaves front names)
    (h' : Leaves back others) : Leaves (front ++ back) (names ++ others) := by
  intro s name
  rw [visitAll_append, (h' _ name).1, (h' _ name).2, (h s name).1, (h s name).2,
    List.count_append, Nat.add_assoc]
  exact ⟨rfl, rfl⟩

theorem opening (number : Nat) (name : String) : Leaves [.opening ⟨name, number⟩] [name] := by
  intro s other
  obtain ⟨hopen, horphan⟩ := counts_visit s (.opening ⟨name, number⟩) other
  refine ⟨?_, ?_⟩
  · rw [List.count_singleton]
    exact hopen
  · exact horphan.trans (congrArg (s.orphanCount other + ·) (Nat.zero_sub _))

theorem within {content : List Tag} {names : List String} (h : Leaves content names)
    (number : Nat) (name : String) :
    Leaves ([.opening ⟨name, number⟩] ++ content ++ [.closing ⟨name, number⟩]) names := by
  intro s other
  obtain ⟨hopen, horphan⟩ := (opening number name).append h s other
  obtain ⟨hclose, horphans⟩ := counts_visit
    (s.visitAll ([.opening ⟨name, number⟩] ++ content)) (.closing ⟨name, number⟩) other
  rw [List.count_append, List.count_singleton] at hopen
  have hopens : (Tag.closing ⟨name, number⟩).opens other = false := rfl
  have hcloses : (Tag.closing ⟨name, number⟩).closes other = (name == other) := rfl
  rw [hopens, hcloses, if_neg Bool.false_ne_true, hopen] at hclose
  rw [hcloses, hopen, horphan] at horphans
  rw [visitAll_append]
  refine ⟨hclose.trans ?_, horphans.trans ?_⟩
  · split <;> omega
  · split <;> omega

end Leaves

/-! ## What elements leave open -/

theorem toLower_eq_hyphen_iff {c : Char} : c.toLower = '-' ↔ c = '-' := by
  unfold Char.toLower
  split
  · rename_i hupper
    have hlow : 65 ≤ c.toNat := UInt32.le_iff_toNat_le.1 hupper.1
    have hhigh : c.toNat ≤ 90 := UInt32.le_iff_toNat_le.1 hupper.2
    refine iff_of_false (fun h => ?_) ?_
    · have hsum : (c.val + ('a'.val - 'A'.val)).toNat = 45 := congrArg Char.toNat h
      have hval : c.val.toNat = c.toNat := rfl
      have hshift : ('a'.val - 'A'.val).toNat = 32 := rfl
      rw [UInt32.toNat_add] at hsum
      omega
    · rintro rfl
      exact absurd hlow (by decide)
  · rfl

theorem TagName.hyphenated_eq_lower (name : TagName) :
    name.hyphenated = name.lower.contains '-' := by
  rw [hyphenated, lower, lowerAscii, Bool.eq_iff_iff, List.contains_iff_mem, List.contains_iff_mem,
    List.mem_map]
  simp only [toLower_eq_hyphen_iff, exists_eq_right]

theorem TagName.not_hyphenated_of_isVoid {name : TagName} (h : name.isVoid = true) :
    name.hyphenated = false := by
  have hall : ∀ void ∈ voidElements, void.toList.contains '-' = false := by decide
  have hvoid := hall _ (List.contains_iff_mem.1 h)
  rwa [String.toList_ofList, ← name.hyphenated_eq_lower] at hvoid

theorem TagName.entry_eq (name : TagName) (h : name.hyphenated = false) :
    name.entry = String.ofList name.lower := by
  rw [entry, name.front_eq_chars h]
  rfl

theorem OpeningTag.not_isPushed_of_isVoid {tag : OpeningTag} (h : tag.name.isVoid = true) :
    tag.isPushed = false := by
  have hvoid : voidElements.contains tag.name.entry = true := by
    rw [tag.name.entry_eq (TagName.not_hyphenated_of_isVoid h)]
    exact h
  rw [isPushed, hvoid]
  rfl

theorem OpeningTag.not_isPushed_of_closesItself {tag : OpeningTag} (h : tag.closesItself = true) :
    tag.isPushed = false := by
  rw [isPushed, h, Bool.not_true, Bool.and_false]

theorem tagsOn_opening_of_not_isPushed (number : Nat) {tag : OpeningTag}
    (h : tag.isPushed = false) (pieces : List Piece) :
    tagsOn number (.opening tag :: pieces) = tagsOn number pieces := by
  rw [tagsOn_cons, Piece.tag?, h]
  rfl

section Element

variable (number : Nat) (tags : TagPair)

theorem TagPair.hyphenated_closing :
    tags.closing.name.hyphenated = tags.opening.name.hyphenated := by
  rw [TagName.hyphenated_eq_lower, TagName.hyphenated_eq_lower, tags.sameName]

def elementTags (content : List Tag) : List Tag :=
  ((Piece.opening tags.opening).tag? number).toList ++ content ++
    ((Piece.closing tags.closing).tag? number).toList

theorem tagsOn_element (content rest : List Piece) :
    tagsOn number (.opening tags.opening :: (content ++ .closing tags.closing :: rest)) =
      elementTags number tags (tagsOn number content) ++ tagsOn number rest := by
  rw [tagsOn_cons, tagsOn_append, tagsOn_cons, elementTags]
  simp only [List.append_assoc]

/-- The tag that opens a hyphenated element stays open, if its name does not read as a void one. -/
theorem tag?_of_hyphenated (h : tags.opening.name.hyphenated = true) :
    (((Piece.opening tags.opening).tag? number).toList =
        tags.opening.name.leftOpen.map (fun name => .opening ⟨name, number⟩)) ∧
      (Piece.closing tags.closing).tag? number = none := by
  constructor
  · rw [Piece.tag?, OpeningTag.isPushed, tags.leavesOpen, TagName.leftOpen, h]
    by_cases hvoid : tags.opening.name.entry ∈ voidElements
    · simp [hvoid]
    · simp [hvoid]
  · rw [Piece.tag?, tags.hyphenated_closing, h]
    rfl

theorem tag?_of_not_hyphenated (h : tags.opening.name.hyphenated = false) :
    (Piece.opening tags.opening).tag? number =
        some (.opening ⟨tags.opening.name.entry, number⟩) ∧
      (Piece.closing tags.closing).tag? number =
        some (.closing ⟨tags.opening.name.entry, number⟩) := by
  have hclosing : tags.closing.name.hyphenated = false := by rw [tags.hyphenated_closing, h]
  have hentry := tags.opening.name.entry_eq h
  have hvoid : voidElements.contains tags.opening.name.entry = false := by
    rw [hentry]
    exact tags.notVoid
  constructor
  · rw [Piece.tag?, OpeningTag.isPushed, hvoid, tags.leavesOpen]
    rfl
  · rw [Piece.tag?, hclosing, tags.closing.name.entry_eq hclosing, tags.sameName, hentry]
    rfl

theorem leaves_leftOpen (number : Nat) (name : TagName) :
    Leaves (name.leftOpen.map (fun left => .opening ⟨left, number⟩)) name.leftOpen := by
  rw [TagName.leftOpen]
  split
  · exact .opening number name.entry
  · exact .nil

theorem leaves_element {content : List Tag} {left : List String} (h : Leaves content left) :
    Leaves (elementTags number tags content) (tags.opening.name.leftOpen ++ left) := by
  cases hhyphenated : tags.opening.name.hyphenated with
  | true =>
      obtain ⟨hopening, hclosing⟩ := tag?_of_hyphenated number tags hhyphenated
      rw [elementTags, hopening, hclosing, Option.toList_none, List.append_nil]
      exact (leaves_leftOpen number _).append h
  | false =>
      obtain ⟨hopening, hclosing⟩ := tag?_of_not_hyphenated number tags hhyphenated
      rw [elementTags, hopening, hclosing, TagName.leftOpen_of_not_hyphenated hhyphenated]
      exact h.within number tags.opening.name.entry

end Element

/-- **A document leaves what is open as it was**, but for the names of its elements that are not
closed, and it has no orphans. -/
theorem leaves_document (number : Nat) (d : Document) :
    Leaves (tagsOn number d.pieces) d.leftOpen := by
  induction d with
  | nothing => exact Leaves.nil
  | char c plain rest ih => exact ih
  | void tag void rest ih =>
      rw [Document.pieces, tagsOn_opening_of_not_isPushed number
        (OpeningTag.not_isPushed_of_isVoid void)]
      exact ih
  | selfClosing tag closes rest ih =>
      rw [Document.pieces, tagsOn_opening_of_not_isPushed number
        (OpeningTag.not_isPushed_of_closesItself closes)]
      exact ih
  | element tags content rest ihContent ihRest =>
      rw [Document.pieces, tagsOn_element, Document.leftOpen]
      exact (leaves_element number tags ihContent).append ihRest

/-! ## What the scan finds of a document -/

/-- Only pairs are missed: of a name that has no orphan, or nothing open, the scan finds what there
is from left to right. -/
theorem counts_of_pieces {pieces : List Piece} {name : String}
    (h : (alone (tagsOn 1 pieces)).openCount name = 0 ∨
      (alone (tagsOn 1 pieces)).orphanCount name = 0) :
    (analyze (String.ofList (textOf pieces))).unclosedTags.countP (·.tag == name) =
        (alone (tagsOn 1 pieces)).openCount name ∧
      (analyze (String.ofList (textOf pieces))).missingCloseTags.countP (·.tag == name) =
        (alone (tagsOn 1 pieces)).orphanCount name := by
  have hmisses := misses_of_pieces pieces
  have hopen := hmisses.openCount_le name
  have horphan := hmisses.orphanCount_le name
  have hpairs := hmisses.pairs name
  obtain ⟨hunclosed, hmissing⟩ := tags_of_analyze (String.ofList (textOf pieces))
  rw [hunclosed, hmissing, List.countP_reverse, ← TagState.openCount, ← TagState.orphanCount]
  omega

theorem perm_of_counts {tags : List TagLocation} {names : List String}
    (h : ∀ name, tags.countP (·.tag == name) = names.count name) :
    (tags.map TagLocation.tag).Perm names := by
  refine List.perm_iff_count.2 (fun name => ?_)
  rw [List.count, List.countP_map]
  exact h name

theorem eq_nil_of_perm {tags : List TagLocation} (h : (tags.map TagLocation.tag).Perm []) :
    tags = [] :=
  List.map_eq_nil_iff.1 (List.perm_nil.1 h)

theorem analyze_of_leaves {pieces : List Piece} {names : List String}
    (h : Leaves (tagsOn 1 pieces) names) :
    (analyze (String.ofList (textOf pieces))).missingCloseTags = [] ∧
      ((analyze (String.ofList (textOf pieces))).unclosedTags.map TagLocation.tag).Perm names := by
  have hopen : ∀ name, (alone (tagsOn 1 pieces)).openCount name = names.count name :=
    fun name => (h ⟨[], []⟩ name).1.trans (Nat.zero_add _)
  have horphan : ∀ name, (alone (tagsOn 1 pieces)).orphanCount name = 0 :=
    fun name => (h ⟨[], []⟩ name).2
  have hcounts := fun name => counts_of_pieces (.inr (horphan name))
  constructor
  · refine eq_nil_of_perm (perm_of_counts (fun name => ?_))
    rw [(hcounts name).2, horphan name, List.count_nil]
  · refine perm_of_counts (fun name => ?_)
    rw [(hcounts name).1, hopen name]

theorem analyze_document (d : Document) :
    (analyze d.source).missingCloseTags = [] ∧
      ((analyze d.source).unclosedTags.map TagLocation.tag).Perm d.leftOpen :=
  analyze_of_leaves (leaves_document 1 d)

theorem Document.IsPlain.leftOpen_eq {d : Document} (h : d.IsPlain) : d.leftOpen = [] := by
  induction d with
  | nothing => rfl
  | char c plain rest ih => exact ih h
  | void tag void rest ih => exact ih h
  | selfClosing tag closes rest ih => exact ih h
  | element tags content rest ihContent ihRest =>
      obtain ⟨hname, hcontent, hrest⟩ := h
      rw [Document.leftOpen, ihContent hcontent, ihRest hrest,
        TagName.leftOpen_of_not_hyphenated hname]
      rfl

theorem unclosedTags_opening {d : Document} (h : d.IsPlain) {opening : OpeningTag}
    (hopening : opening.isPushed = true) :
    (analyze (String.ofList (textOf (.opening opening :: d.pieces)))).unclosedTags.map
      TagLocation.tag = [opening.name.entry] := by
  have hleaves := (Leaves.opening 1 opening.name.entry).append (leaves_document 1 d)
  have htags : tagsOn 1 (.opening opening :: d.pieces) =
      [.opening ⟨opening.name.entry, 1⟩] ++ tagsOn 1 d.pieces := by
    rw [tagsOn_cons, Piece.tag?, if_pos hopening]
    rfl
  rw [← htags, h.leftOpen_eq] at hleaves
  exact List.perm_singleton.1 (analyze_of_leaves hleaves).2

theorem missingCloseTags_closing {d : Document} (h : d.IsPlain) {closing : ClosingTag}
    (hclosing : closing.name.hyphenated = false) :
    (analyze (String.ofList (textOf (d.pieces ++ [.closing closing])))).missingCloseTags.map
      TagLocation.tag = [closing.name.entry] := by
  have hclose : alone (tagsOn 1 (d.pieces ++ [.closing closing])) =
      (alone (tagsOn 1 d.pieces)).visit (.closing ⟨closing.name.entry, 1⟩) := by
    rw [tagsOn_append, tagsOn_cons, Piece.tag?, hclosing, alone, visitAll_append]
    rfl
  have hleaves := leaves_document 1 d
  rw [h.leftOpen_eq] at hleaves
  refine List.perm_singleton.1 (perm_of_counts (fun name => ?_))
  have hnone : (alone (tagsOn 1 d.pieces)).openCount name = 0 ∧
      (alone (tagsOn 1 d.pieces)).orphanCount name = 0 := hleaves ⟨[], []⟩ name
  obtain ⟨hopen, horphan⟩ :=
    counts_visit (alone (tagsOn 1 d.pieces)) (.closing ⟨closing.name.entry, 1⟩) name
  rw [← hclose, hnone.1] at hopen horphan
  rw [(counts_of_pieces (.inl (hopen.trans (Nat.zero_sub _)))).2, horphan, hnone.2, Nat.zero_add,
    List.count_singleton]
  rfl

/-- **Well-formed documents are clean**, if no element has a hyphen in its name: nothing is left
open, nothing is closed that was not open, and no tag is incomplete, wherever lines end.  With one
tag more in front or behind they are not. -/
theorem well_formed_is_clean (d : Document) (h : d.IsPlain) :
    ((analyze d.source).unclosedTags = [] ∧ (analyze d.source).missingCloseTags = [] ∧
      (analyze d.source).incompleteTags = []) ∧
    (∀ opening : OpeningTag, opening.isPushed = true →
      (analyze (String.ofList (textOf (.opening opening :: d.pieces)))).unclosedTags.map
        TagLocation.tag = [opening.name.entry]) ∧
    ∀ closing : ClosingTag, closing.name.hyphenated = false →
      (analyze (String.ofList (textOf (d.pieces ++ [.closing closing])))).missingCloseTags.map
        TagLocation.tag = [closing.name.entry] := by
  obtain ⟨hmissing, hopen⟩ := analyze_document d
  rw [h.leftOpen_eq] at hopen
  exact ⟨⟨eq_nil_of_perm hopen, hmissing, incompleteTags_of_pieces d.pieces⟩,
    fun opening => unclosedTags_opening h, fun closing => missingCloseTags_closing h⟩

/-- A list that ends in capitals, with a rule and a tag that closes itself on its second line. -/
def listDocument : Document :=
  .element
    ⟨⟨⟨"ul".toList, rfl, rfl⟩, ⟨" class=\"a\"".toList, rfl, rfl⟩⟩,
      ⟨⟨"UL".toList, rfl, rfl⟩, ⟨[], rfl⟩⟩, rfl, rfl, rfl⟩
    (.char '\n' (by decide)
      (.void ⟨⟨"hr".toList, rfl, rfl⟩, ⟨[], rfl, rfl⟩⟩ rfl
        (.selfClosing ⟨⟨"i".toList, rfl, rfl⟩, ⟨" /".toList, rfl, rfl⟩⟩ rfl .nothing)))
    .nothing

theorem listDocument_is_clean :
    listDocument.source = "<ul class=\"a\">\n<hr><i /></UL>" ∧ listDocument.IsPlain ∧
      (analyze listDocument.source).unclosedTags = [] ∧
      (analyze listDocument.source).missingCloseTags = [] ∧
      (analyze listDocument.source).incompleteTags = [] := by
  have hplain : listDocument.IsPlain := ⟨rfl, trivial, trivial⟩
  exact ⟨by decide, hplain, (well_formed_is_clean listDocument hplain).1⟩

end CodeSurvey.Html
