/-
# The ids that are read

An id is read between two quotes if it is not empty and the text in front of the first one ends in
`id=`.  So the search for ids is a scan over the text cut at its quotes, that goes on behind the
second quote where it read an id and behind the first where it did not (`ids_eq_idsBetween`).

Where quotes stand around values only and no value ends in `id=`, that is the values of the
attributes whose names end in `id`, the empty ones apart (`idsBetween_parts`): of `id` itself, and
of names such as `data-id`.
-/
import CodeSurvey.Proofs.Html.Attributes
import CodeSurvey.Proofs.NameSet
import CodeSurvey.Proofs.Pattern.Quoted

namespace CodeSurvey.Html

open Text Pattern

/-! ## The scan -/

/-- What a text in front of an id ends in. -/
def idLead : List Char := ['i', 'd', '=']

def idsBetween : List (List Char) → List (List Char)
  | text :: value :: next :: rest =>
    if idLead.isSuffixOf text && !value.isEmpty then value :: idsBetween (next :: rest)
    else idsBetween (value :: next :: rest)
  | _ => []

theorem idsBetween_eq_valuesBetween (pieces : List (List Char)) :
    idsBetween pieces = valuesBetween idLead pieces := by
  fun_induction idsBetween pieces with
  | case1 text value next rest hread ih => rw [valuesBetween, if_pos hread, ih]
  | case2 text value next rest hread ih => rw [valuesBetween, if_neg hread, ih]
  | case3 pieces hfew =>
      rcases pieces with _ | ⟨text, _ | ⟨value, _ | ⟨next, rest⟩⟩⟩
      · rfl
      · rfl
      · rfl
      · exact absurd rfl (hfew text value next rest)

theorem readsValues_idPattern : ReadsValues idLead idPattern := by
  refine readsValues_of_opener (by decide) (fun here out hout => ?_) (fun front back groups => ?_)
  · exact rest_of_mem_literal hout
  · exact first_literal "id=\"" front back groups

/-- **Ids are read between quotes.** -/
theorem ids_eq_idsBetween (text : List Char) :
    (idPattern.findAll text).map (·.groupText 1) = idsBetween (splitAt '"' text) := by
  rw [readsValues_idPattern.map_findAll, idsBetween_eq_valuesBetween]

/-! ## Ids of attributes -/

/-- Whether the value of an attribute is read as an id: the name ends in `id`, and the value is not
empty. -/
def Attribute.isReadAsId (a : Attribute) : Bool := ['i', 'd'].isSuffixOf a.name && !a.value.isEmpty

def idValues (attributes : List Attribute) : List (List Char) :=
  (attributes.filter Attribute.isReadAsId).map (·.value)

/-- Whether quotes of a part stand around values only, and no value ends like the lead of an id. -/
def Part.keepsQuotes : Part → Bool
  | char c _ => c != '"'
  | opening tag => tag.attributes.all (fun a => !idLead.isSuffixOf a.value)
  | closing _ => true

section Values

variable {front rest : List Char} {ids : List (List Char)}

theorem idsBetween_cons {text : List Char} (h : ¬idLead <:+ text) (pieces : List (List Char)) :
    idsBetween (text :: pieces) = idsBetween pieces := by
  match pieces with
  | [] => rfl
  | [_] => rfl
  | value :: next :: others =>
      rw [idsBetween, if_neg]
      exact fun hid => h (isRead_iff.1 hid).1

/-- The lead is at the end where the name of an attribute ends in `id`: a blank parts the name from
what is in front. -/
theorem Attribute.idLead_suffix_iff (a : Attribute) (front : List Char) :
    idLead <:+ front ++ (a.gap.chars ++ (a.name ++ ['='])) ↔ ['i', 'd'] <:+ a.name := by
  constructor
  · intro h
    have hreverse := List.reverse_prefix.2 h
    simp only [List.reverse_append, List.reverse_singleton, List.append_assoc] at hreverse
    obtain ⟨b, blanks, hgap⟩ := List.exists_cons_of_ne_nil (List.reverse_ne_nil_iff.2 a.apart)
    have hb : b ∈ a.gap.chars := by
      rw [← List.mem_reverse, hgap]
      exact List.mem_cons_self
    have hblank : isBlank b = true := (Gap.blank_of_mem hb).1
    rw [hgap] at hreverse
    have hname : ['d', 'i'] <+: a.name.reverse ++ (b :: (blanks ++ front.reverse)) :=
      (List.cons_prefix_cons.1 hreverse).2
    refine List.reverse_prefix.1 ?_
    cases hlast : a.name.reverse with
    | nil => exact absurd (List.reverse_eq_nil_iff.1 hlast) a.named
    | cons c others =>
        rw [hlast, List.cons_append, List.cons_prefix_cons] at hname
        obtain ⟨rfl, hname⟩ := hname
        cases others with
        | nil =>
            obtain ⟨rfl, -⟩ := List.cons_prefix_cons.1 hname
            exact absurd hblank (by decide)
        | cons e others =>
            obtain ⟨rfl, -⟩ := List.cons_prefix_cons.1 hname
            exact ⟨others, rfl⟩
  · rintro ⟨before, hname⟩
    refine ⟨front ++ (a.gap.chars ++ before), ?_⟩
    rw [← hname]
    simp only [idLead, List.append_assoc, List.cons_append, List.nil_append]

theorem Attribute.idsBetween_text (a : Attribute) (hvalue : ¬idLead <:+ a.value)
    (hfront : '"' ∉ front) (rest : List Char) :
    idsBetween (splitAt '"' (front ++ (a.text ++ rest))) =
      idValues [a] ++ idsBetween (splitAt '"' rest) := by
  have hlead : '"' ∉ front ++ (a.gap.chars ++ (a.name ++ ['='])) := by
    simp only [List.mem_append, List.mem_singleton, not_or]
    refine ⟨hfront, fun hmem => ?_, fun hmem => ?_, by decide⟩
    · exact (of_isTailChar (a.tailChar_of_mem_gap _ hmem)).2.2.2 rfl
    · exact (a.of_mem_name hmem).2.2 rfl
  have hquote : '"' ∉ a.value := fun hmem => (a.of_mem_value hmem).2 rfl
  have htext : front ++ (a.text ++ rest) =
      (front ++ (a.gap.chars ++ (a.name ++ ['=']))) ++ '"' :: (a.value ++ '"' :: rest) := by
    simp only [Attribute.text, List.append_assoc, List.cons_append, List.nil_append]
  obtain ⟨next, others, hrest, -⟩ := splitWhere_pieces (· == '"') rest
  have hrest : splitAt '"' rest = next :: others := hrest
  have hsame : (idLead.isSuffixOf (front ++ (a.gap.chars ++ (a.name ++ ['=']))) &&
      !a.value.isEmpty) = a.isReadAsId := by
    rw [isReadAsId, Bool.eq_iff_iff, isRead_iff, isRead_iff, a.idLead_suffix_iff]
  rw [htext, splitAt_append_cons hlead, splitAt_append_cons hquote, hrest, idsBetween, hsame, idValues,
    List.filter_singleton]
  cases a.isReadAsId with
  | true => rfl
  | false => exact idsBetween_cons hvalue _

/-- Attributes add their values that are read as ids, whatever stands in front of them and behind. -/
theorem idsBetween_attributes {attributes : List Attribute}
    (hvalues : ∀ a ∈ attributes, ¬idLead <:+ a.value)
    (hrest : ∀ front, '"' ∉ front → idsBetween (splitAt '"' (front ++ rest)) = ids)
    (hfront : '"' ∉ front) :
    idsBetween (splitAt '"' (front ++ (attributes.flatMap Attribute.text ++ rest))) =
      idValues attributes ++ ids := by
  induction attributes generalizing front with
  | nil => exact hrest front hfront
  | cons a others ih =>
      obtain ⟨hvalue, hothers⟩ := List.forall_mem_cons.1 hvalues
      have hnext := ih hothers (List.not_mem_nil : '"' ∉ [])
      rw [List.flatMap_cons, List.append_assoc, a.idsBetween_text hvalue hfront]
      rw [List.nil_append] at hnext
      rw [hnext, ← List.append_assoc, idValues, idValues, idValues, ← List.map_append,
        ← List.filter_append, List.singleton_append]

theorem AttributedTag.idsBetween_text (t : AttributedTag)
    (hvalues : ∀ a ∈ t.attributes, ¬idLead <:+ a.value)
    (hrest : ∀ front, '"' ∉ front → idsBetween (splitAt '"' (front ++ rest)) = ids)
    (hfront : '"' ∉ front) :
    idsBetween (splitAt '"' (front ++ (t.text ++ rest))) = idValues t.attributes ++ ids := by
  have hlead : '"' ∉ front ++ '<' :: t.name.chars := by
    rw [List.mem_append, List.mem_cons, not_or, not_or]
    exact ⟨hfront, by decide, t.name.not_mem rfl⟩
  have htail : '"' ∉ t.tail ++ ['>'] := by
    rw [List.mem_append, List.mem_singleton, not_or]
    refine ⟨fun hmem => ?_, by decide⟩
    exact (of_isTailChar (List.all_eq_true.1 t.tailChars _ hmem)).2.2.2 rfl
  have hbehind : ∀ before, '"' ∉ before →
      idsBetween (splitAt '"' (before ++ ((t.tail ++ ['>']) ++ rest))) = ids := by
    intro before hbefore
    rw [← List.append_assoc]
    exact hrest _ (fun hmem => (List.mem_append.1 hmem).elim hbefore htail)
  have htext : front ++ (t.text ++ rest) = (front ++ '<' :: t.name.chars) ++
      (t.attributes.flatMap Attribute.text ++ ((t.tail ++ ['>']) ++ rest)) := by
    have htag : t.text = '<' :: (t.name.chars ++
        (t.attributes.flatMap Attribute.text ++ t.tail ++ ['>'])) := rfl
    rw [htag]
    simp only [List.append_assoc, List.cons_append, List.nil_append]
  rw [htext, idsBetween_attributes hvalues hbehind hlead]

theorem quote_not_mem_closing (tag : ClosingTag) : '"' ∉ tag.text := by
  intro hmem
  simp only [ClosingTag.text, List.mem_cons, List.mem_append, List.not_mem_nil, or_false] at hmem
  rcases hmem with hmem | hmem | hmem | hmem | hmem
  · exact absurd hmem (by decide)
  · exact absurd hmem (by decide)
  · exact tag.name.not_mem rfl hmem
  · exact absurd (Gap.blank_of_mem hmem).1 (by decide)
  · exact absurd hmem (by decide)

/-- **The ids that are read of parts** are the values of attributes whose names end in `id`. -/
theorem idsBetween_parts {parts : List Part} (h : parts.all Part.keepsQuotes = true)
    (hfront : '"' ∉ front) :
    idsBetween (splitAt '"' (front ++ textOfParts parts)) =
      idValues ((attributedTags parts).flatMap (·.attributes)) := by
  induction parts generalizing front with
  | nil =>
      rw [textOfParts, List.map_nil, textOf, List.flatMap_nil, List.append_nil,
        splitAt_free hfront]
      rfl
  | cons part parts ih =>
      obtain ⟨hpart, hparts⟩ := Bool.and_eq_true_iff.1 h
      have htext : textOfParts (part :: parts) = part.piece.text ++ textOfParts parts := rfl
      rw [htext]
      -- a text without quotes only goes on what is in front
      have hplain : ∀ text, '"' ∉ text → idsBetween (splitAt '"' (front ++ (text ++
          textOfParts parts))) = idValues ((attributedTags parts).flatMap (·.attributes)) := by
        intro text hquote
        rw [← List.append_assoc]
        exact ih hparts (fun hmem => (List.mem_append.1 hmem).elim hfront hquote)
      cases part with
      | char c plain =>
          exact hplain [c] (fun hmem => bne_iff_ne.1 hpart (List.mem_singleton.1 hmem).symm)
      | closing tag => exact hplain tag.text (quote_not_mem_closing tag)
      | opening tag =>
          have hvalues : ∀ a ∈ tag.attributes, ¬idLead <:+ a.value := by
            intro a ha hlead
            have hvalue := List.all_eq_true.1 hpart a ha
            rw [List.isSuffixOf_iff_suffix.2 hlead] at hvalue
            cases hvalue
          have htags : attributedTags (.opening tag :: parts) = tag :: attributedTags parts := rfl
          have hthis := tag.idsBetween_text hvalues (fun front hfront => ih hparts hfront) hfront
          rw [htags, List.flatMap_cons, idValues, List.filter_append, List.map_append]
          exact hthis

theorem exists_unified_parts (parts : List Part) :
    ∃ others, textOfParts others = unifyEndings (textOfParts parts) ∧
      attributedTags others = attributedTags parts ∧
      others.all Part.keepsQuotes = parts.all Part.keepsQuotes := by
  induction parts with
  | nil => exact ⟨[], rfl, rfl, rfl⟩
  | cons part parts ih =>
      obtain ⟨others, htext, htags, hquotes⟩ := ih
      have hjoined : textOfParts (part :: parts) = part.piece.text ++ textOfParts parts := rfl
      rw [hjoined]
      by_cases hreturn : '\r' ∈ part.piece.text
      · cases part with
        | opening tag =>
            have hbreak : (Piece.opening tag.opening).isBreak = false := rfl
            exact absurd hreturn (Piece.isPlain hbreak).1
        | closing tag =>
            have hbreak : (Piece.closing tag).isBreak = false := rfl
            exact absurd hreturn (Piece.isPlain hbreak).1
        | char c plain =>
            obtain rfl := List.mem_singleton.1 hreturn
            have hunified := unifyEndings_return (textOfParts parts)
            split at hunified
            · exact ⟨others, htext.trans hunified.symm, htags, hquotes⟩
            · refine ⟨.char '\n' (by decide) :: others, ?_, htags, hquotes⟩
              exact (congrArg (List.cons '\n') htext).trans hunified.symm
      · refine ⟨part :: others, ?_, ?_, ?_⟩
        · rw [unifyEndings_plain hreturn, ← htext]
          rfl
        · cases part with
          | opening tag => exact congrArg (List.cons tag) htags
          | char c plain => exact htags
          | closing tag => exact htags
        · rw [List.all_cons, List.all_cons, hquotes]

end Values

/-! ## What the checks read -/

/-- The ids that come twice or more, in the order first seen. -/
def repeatedIds (ids : List (List Char)) : List String :=
  (ids.map String.ofList).eraseDups.filter (fun id => 2 ≤ (ids.map String.ofList).count id)

theorem duplicatedIds_eq (text : List Char) :
    duplicatedIds text = repeatedIds (idsBetween (splitAt '"' text)) := by
  have hids : (idPattern.findAll text).map (fun m => String.ofList (m.groupText 1)) =
      (idsBetween (splitAt '"' text)).map String.ofList := by
    rw [← ids_eq_idsBetween text, List.map_map]
    rfl
  rw [duplicatedIds, hids, NameSet.toList_ofList]
  rfl

theorem duplicatedIds_parts {parts : List Part} (h : parts.all Part.keepsQuotes = true) :
    duplicatedIds (unifyEndings (textOfParts parts)) =
      repeatedIds (idValues ((attributedTags parts).flatMap (·.attributes))) := by
  obtain ⟨others, htext, htags, hquotes⟩ := exists_unified_parts parts
  have hids := idsBetween_parts (hquotes.trans h) (List.not_mem_nil : '"' ∉ [])
  rw [List.nil_append, htext, htags] at hids
  rw [duplicatedIds_eq, hids]

end CodeSurvey.Html
