/-
# Attributes and the words of a tag

A tag with attributes in double quotes has the words of its name, of the names of its attributes and
of their values (`wordsOf_text`).  The checks for a missing attribute look for a word, wherever in
the tag it stands.  So a tag is listed if neither its name nor the name or value of an attribute has
the word (`snippets_tagsWithout`), and that differs from lacking the attribute just where the word
stands in another one.
-/
import CodeSurvey.Proofs.Html.Documents
import CodeSurvey.Proofs.Pattern.WholeWords

namespace CodeSurvey.Html

open Text Pattern

/-! ## Attributes -/

def isAttributeNameChar (c : Char) : Bool :=
  isAttributeChar c && !isBlank c && c != '"' && c != '/' && c != '='

/-- A character of a value in double quotes. -/
def isValueChar (c : Char) : Bool := isAttributeChar c && c != '"'

/-- A character that may stand between the attributes of a tag and its end. -/
def isTailChar (c : Char) : Bool := isGapChar c || c == '/'

/-- An attribute with its value in double quotes, and the blanks in front of it. -/
structure Attribute where
  gap : Gap
  apart : gap.chars ≠ []
  name : List Char
  named : name ≠ []
  nameChars : name.all isAttributeNameChar = true
  value : List Char
  valueChars : value.all isValueChar = true

def hasWord (text : List Char) (word : String) : Bool :=
  (wordsOf text).any (fun w => lowerAscii w == word.toList)

theorem not_isNameChar_of_isBlank {c : Char} (h : isBlank c = true) : isNameChar c = false := by
  rw [isNameChar, not_isAlphanum_of_isBlank h, Bool.false_or, beq_eq_false_iff_ne]
  rintro rfl
  exact absurd h (by decide)

theorem isAttributeChar_of_isGapChar {c : Char} (h : isGapChar c = true) :
    isAttributeChar c = true := by
  simp only [isGapChar, Bool.and_eq_true] at h
  obtain ⟨⟨hblank, hreturn⟩, hnewline⟩ := h
  rw [isAttributeChar, hreturn, hnewline, Bool.and_true, Bool.and_true, Bool.and_eq_true,
    bne_iff_ne, bne_iff_ne]
  constructor
  · rintro rfl
    exact absurd hblank (by decide)
  · rintro rfl
    exact absurd hblank (by decide)

theorem of_isTailChar {c : Char} (h : isTailChar c = true) :
    isAttributeChar c = true ∧ isWordChar c = false ∧ isNameChar c = false ∧ c ≠ '"' := by
  rcases Bool.or_eq_true_iff.1 h with h | h
  · have hblank : isBlank c = true := by
      simp only [isGapChar, Bool.and_eq_true] at h
      exact h.1.1
    refine ⟨isAttributeChar_of_isGapChar h, not_isWordChar_of_isBlank hblank,
      not_isNameChar_of_isBlank hblank, ?_⟩
    rintro rfl
    exact absurd hblank (by decide)
  · rw [beq_iff_eq.1 h]
    decide

namespace Attribute

variable (a : Attribute)

def text : List Char := a.gap.chars ++ (a.name ++ '=' :: '"' :: (a.value ++ ['"']))

def isNamed (name : String) : Bool := lowerAscii a.name == name.toList

/-- Whether a word stands in the name of an attribute or in its value. -/
def mentions (word : String) : Bool := hasWord a.name word || hasWord a.value word

theorem tailChar_of_mem_gap : ∀ c ∈ a.gap.chars, isTailChar c = true := by
  intro c hc
  rw [isTailChar, List.all_eq_true.1 a.gap.all c hc, Bool.true_or]

theorem of_mem_name {c : Char} (hc : c ∈ a.name) :
    isAttributeChar c = true ∧ isBlank c = false ∧ c ≠ '"' := by
  have hname := List.all_eq_true.1 a.nameChars c hc
  simp only [isAttributeNameChar, Bool.and_eq_true, Bool.not_eq_true', bne_iff_ne] at hname
  exact ⟨hname.1.1.1.1, hname.1.1.1.2, hname.1.1.2⟩

theorem of_mem_value {c : Char} (hc : c ∈ a.value) : isAttributeChar c = true ∧ c ≠ '"' := by
  have hvalue := List.all_eq_true.1 a.valueChars c hc
  rwa [isValueChar, Bool.and_eq_true, bne_iff_ne] at hvalue

theorem attributeChar_of_mem_text : ∀ c ∈ a.text, isAttributeChar c = true := by
  intro c hc
  rw [text, List.mem_append, List.mem_append, List.mem_cons, List.mem_cons, List.mem_append,
    List.mem_singleton] at hc
  rcases hc with hc | hc | rfl | rfl | hc | rfl
  · exact (of_isTailChar (a.tailChar_of_mem_gap c hc)).1
  · exact (a.of_mem_name hc).1
  · rfl
  · rfl
  · exact (a.of_mem_value hc).1
  · rfl

/-- **An attribute has the words of its name and of its value.** -/
theorem wordsOf_text_append (rest : List Char) :
    wordsOf (a.text ++ rest) = wordsOf a.name ++ (wordsOf a.value ++ wordsOf rest) := by
  have htext : a.text ++ rest =
      a.gap.chars ++ (a.name ++ '=' :: '"' :: (a.value ++ '"' :: rest)) := by
    simp only [text, List.append_assoc, List.cons_append, List.nil_append]
  have hgap : ∀ c ∈ a.gap.chars, isWordChar c = false :=
    fun c hc => (of_isTailChar (a.tailChar_of_mem_gap c hc)).2.1
  rw [htext, wordsOf_breaks_append hgap, wordsOf_append_cons (by decide), wordsOf_cons (by decide),
    wordsOf_append_cons (by decide)]

theorem mentions_of_isNamed {name : String} (hname : name.toList.all Char.isLower = true)
    (h : a.isNamed name = true) : a.mentions name = true := by
  have hlower : lowerAscii a.name = name.toList := beq_iff_eq.1 h
  have hword := wordsOf_word a.named (isWordChar_of_lowerAscii hname hlower)
  rw [mentions, hasWord, hword, List.any_cons, hlower, beq_self_eq_true]
  rfl

end Attribute

/-! ## Tags with attributes -/

/-- An opening tag with attributes; blanks and slashes may follow them. -/
structure AttributedTag where
  name : TagName
  attributes : List Attribute
  tail : List Char
  tailChars : tail.all isTailChar = true

namespace AttributedTag

variable (t : AttributedTag)

def behind : List Char := t.attributes.flatMap Attribute.text ++ t.tail

theorem head?_behind : t.behind.head?.all isTailChar = true := by
  rw [behind]
  cases t.attributes with
  | nil =>
      rw [List.flatMap_nil, List.nil_append]
      cases htail : t.tail with
      | nil => rfl
      | cons c others =>
          exact List.all_eq_true.1 t.tailChars c (by rw [htail]; exact List.mem_cons_self)
  | cons a others =>
      obtain ⟨c, gap, hgap⟩ := List.exists_cons_of_ne_nil a.apart
      rw [List.flatMap_cons, Attribute.text, hgap]
      exact a.tailChar_of_mem_gap c (by rw [hgap]; exact List.mem_cons_self)

theorem attributeChar_of_mem_behind : ∀ c ∈ t.behind, isAttributeChar c = true := by
  intro c hc
  rcases List.mem_append.1 hc with hc | hc
  · obtain ⟨a, -, hc⟩ := List.mem_flatMap.1 hc
    exact a.attributeChar_of_mem_text c hc
  · exact (of_isTailChar (List.all_eq_true.1 t.tailChars c hc)).1

theorem first_behind : t.behind.head?.any isNameChar = false := by
  have hhead := t.head?_behind
  cases hfirst : t.behind.head? with
  | none => rfl
  | some c =>
      rw [hfirst] at hhead
      exact (of_isTailChar hhead).2.2.1

/-- The tag as one that is told by the characters behind its name. -/
def opening : OpeningTag where
  name := t.name
  attributes :=
    { chars := t.behind
      first := t.first_behind
      all := List.all_eq_true.2 t.attributeChar_of_mem_behind }

def text : List Char := t.opening.text

def has (name : String) : Bool := t.attributes.any (·.isNamed name)

/-- Whether a word stands in the tag: in its name, or in the name of an attribute or its value. -/
def mentions (word : String) : Bool :=
  hasWord t.name.chars word || t.attributes.any (·.mentions word)

theorem wordsOf_flatMap_text_append (attributes : List Attribute) (rest : List Char) :
    wordsOf (attributes.flatMap Attribute.text ++ rest) =
      attributes.flatMap (fun a => wordsOf a.name ++ wordsOf a.value) ++ wordsOf rest := by
  induction attributes with
  | nil => rfl
  | cons a others ih =>
      rw [List.flatMap_cons, List.append_assoc, a.wordsOf_text_append, ih, List.flatMap_cons]
      simp only [List.append_assoc]

/-- **A tag has the words of its name and of its attributes.** -/
theorem wordsOf_text :
    wordsOf t.text = wordsOf t.name.chars ++
      t.attributes.flatMap (fun a => wordsOf a.name ++ wordsOf a.value) := by
  have htext : t.text = '<' :: (t.name.chars ++ (t.behind ++ ['>'])) := rfl
  have hbehind : (t.behind ++ ['>']).head?.any isWordChar = false := by
    have hhead := t.head?_behind
    cases hfirst : t.behind with
    | nil => rfl
    | cons c others =>
        rw [hfirst] at hhead
        exact (of_isTailChar hhead).2.1
  have htail : ∀ c ∈ t.tail, isWordChar c = false :=
    fun c hc => (of_isTailChar (List.all_eq_true.1 t.tailChars c hc)).2.1
  rw [htext, wordsOf_cons (by decide), wordsOf_append hbehind, wordsOf_concat (by decide), behind,
    wordsOf_flatMap_text_append, ← List.append_nil t.tail, wordsOf_breaks_append htail, wordsOf_nil,
    List.append_nil]

/-- **The check for an attribute looks for its name as a word of the tag.** -/
theorem occurs_attributePattern {name : String} (hname : name.toList.all Char.isLower = true)
    (hne : name.toList ≠ []) : (attributePattern name).occurs t.text = t.mentions name := by
  have hmentions : t.mentions name =
      (wordsOf t.text).any (fun w => lowerAscii w == name.toList) := by
    rw [wordsOf_text, List.any_append, List.any_flatMap, mentions]
    simp only [Attribute.mentions, hasWord, List.any_append]
  rw [hmentions, Bool.eq_iff_iff, attributePattern, occurs_wholeWord_iff hname hne, List.any_eq_true]
  simp only [beq_iff_eq]

theorem mentions_of_has {name : String} (hname : name.toList.all Char.isLower = true)
    (h : t.has name = true) : t.mentions name = true := by
  obtain ⟨a, ha, hnamed⟩ := List.any_eq_true.1 h
  rw [mentions, List.any_eq_true.2 ⟨a, ha, a.mentions_of_isNamed hname hnamed⟩, Bool.or_true]

def isMissing (element name : String) : Bool := t.name.entry == element && !t.has name

/-- Whether the tag is one of an element and a word does not stand in it. -/
def isListed (element word : String) : Bool := t.name.entry == element && !t.mentions word

theorem isMissing_of_isListed {element name : String}
    (hname : name.toList.all Char.isLower = true) (h : t.isListed element name = true) :
    t.isMissing element name = true := by
  rw [isListed, Bool.and_eq_true, Bool.not_eq_true'] at h
  rw [isMissing, h.1, Bool.true_and, Bool.not_eq_true', ← Bool.not_eq_true]
  intro hhas
  rw [t.mentions_of_has hname hhas] at h
  cases h.2

end AttributedTag

/-- The tags as they stand in a source. -/
def snippetsOf (tags : List AttributedTag) : List String := tags.map (fun t => String.ofList t.text)

/-- **Words make a difference** only where a tag without the attribute has the word. -/
theorem snippets_eq_iff {element name : String} (hname : name.toList.all Char.isLower = true)
    (tags : List AttributedTag) :
    snippetsOf (tags.filter (·.isListed element name)) =
        snippetsOf (tags.filter (·.isMissing element name)) ↔
      ∀ t ∈ tags, t.isMissing element name = true → t.isListed element name = true := by
  have hsub : (tags.filter (·.isListed element name)).Sublist
      (tags.filter (·.isMissing element name)) :=
    List.monotone_filter_right tags (fun t ht => t.isMissing_of_isListed hname ht)
  constructor
  · intro h t ht hmissing
    have hlength := congrArg List.length h
    rw [snippetsOf, snippetsOf, List.length_map, List.length_map] at hlength
    have hmem : t ∈ tags.filter (·.isListed element name) := by
      rw [hsub.eq_of_length hlength]
      exact List.mem_filter.2 ⟨ht, hmissing⟩
    exact (List.mem_filter.1 hmem).2
  · intro h
    refine congrArg snippetsOf (List.filter_congr (fun t ht => ?_))
    rw [Bool.eq_iff_iff]
    exact ⟨t.isMissing_of_isListed hname, h t ht⟩

/-! ## What the checks list -/

/-- A part of a source: a character of text, an opening tag with attributes, or a closing tag. -/
inductive Part where
  | char (c : Char) (plain : c ≠ '<' ∧ c ≠ '>')
  | opening (tag : AttributedTag)
  | closing (tag : ClosingTag)

def Part.piece : Part → Piece
  | char c plain => .char c plain
  | opening tag => .opening tag.opening
  | closing tag => .closing tag

def Part.tag? : Part → Option AttributedTag
  | opening tag => some tag
  | _ => none

def attributedTags (parts : List Part) : List AttributedTag := parts.filterMap Part.tag?

def textOfParts (parts : List Part) : List Char := textOf (parts.map Part.piece)

theorem openingsOf_parts (parts : List Part) :
    openingsOf (parts.map Part.piece) = (attributedTags parts).map AttributedTag.opening := by
  rw [openingsOf, attributedTags, List.filterMap_map, List.map_filterMap]
  refine List.filterMap_congr (fun part _ => ?_)
  cases part <;> rfl

theorem openingsOf_filter_break (pieces : List Piece) :
    openingsOf (pieces.filter (fun piece => !piece.isBreak)) = openingsOf pieces := by
  rw [openingsOf, List.filterMap_filter]
  refine List.filterMap_congr (fun piece _ => ?_)
  cases piece with
  | char c plain => exact ite_self none
  | opening tag => rfl
  | closing tag => rfl

section Listed

variable {tag required : String}

def OpeningTag.lacks (tag required : String) (t : OpeningTag) : Bool :=
  t.name.entry == tag && !(attributePattern required).occurs t.text

theorem snippets_textOf (number : Nat) (pieces : List Piece) :
    (tagsWithout tag required number (textOf pieces)).map (·.snippet) =
      ((openingsOf pieces).filter (OpeningTag.lacks tag required)).map
        (fun t => String.ofList t.text) := by
  rw [tagsWithout, List.map_map]
  refine map_filter_of_shows (shows_textOf [] pieces) (fun t m hshows => ?_)
  rw [hshows.nameOf_eq, hshows.text]
  exact ⟨rfl, congrArg String.ofList hshows.text⟩

theorem snippets_lines (number : Nat) (lines : List (List Piece)) :
    (eachLine (tagsWithout tag required) number (lines.map textOf)).map (·.snippet) =
      ((openingsOf lines.flatten).filter (OpeningTag.lacks tag required)).map
        (fun t => String.ofList t.text) := by
  induction lines generalizing number with
  | nil => rfl
  | cons line lines ih =>
      rw [List.map_cons, eachLine, List.map_append, snippets_textOf, ih, List.flatten_cons,
        openingsOf, openingsOf, openingsOf, List.filterMap_append, List.filter_append,
        List.map_append]

/-- **A check lists the tags of the element in which the attribute is no word.** -/
theorem snippets_parts (hname : required.toList.all Char.isLower = true)
    (hne : required.toList ≠ []) (parts : List Part) :
    (eachLine (tagsWithout tag required) 1
        (splitLines (unifyEndings (textOfParts parts)))).map (·.snippet) =
      snippetsOf ((attributedTags parts).filter (·.isListed tag required)) := by
  obtain ⟨lines, hlines, hflatten⟩ := exists_lines_textOf (parts.map Part.piece)
  rw [textOfParts, hlines, snippets_lines, hflatten, openingsOf_filter_break, openingsOf_parts,
    List.filter_map, List.map_map]
  have hsame : ∀ t ∈ attributedTags parts,
      (OpeningTag.lacks tag required ∘ AttributedTag.opening) t = t.isListed tag required := by
    intro t _
    rw [AttributedTag.isListed, ← t.occurs_attributePattern hname hne]
    rfl
  rw [List.filter_congr hsame]
  rfl

end Listed

end CodeSurvey.Html
