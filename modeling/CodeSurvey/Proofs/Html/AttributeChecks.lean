/-
# What the checks for attributes read

The checks for `alt` and `href` read a tag as words and the search for ids reads a text between its
quotes; neither reads attributes.  For tags with attributes in double quotes it is told here what
they find, and where that is what the attributes say (`checks_read_words`).

A source is written as a list of parts, tags with their attributes and the texts between them, so
that both sides can be stated of the same data: what the attributes are, and what the words and
quotes of the written tag come to.  The checks are right if no name of an element and no value of
another attribute has the word that stands for the attribute.  A file name is the plainest way to
break that: an image whose source is called after the word counts as described
(`altFile_not_listed`).
-/
import CodeSurvey.Proofs.Html.Ids

namespace CodeSurvey.Html

open Text

def sourceOfParts (parts : List Part) : String := String.ofList (textOfParts parts)

/-- The attributes of all tags, in order. -/
def attributesOf (parts : List Part) : List Attribute :=
  (attributedTags parts).flatMap (·.attributes)

def namedIds (attributes : List Attribute) : List (List Char) :=
  (attributes.filter (fun a => a.name == ['i', 'd'])).map (·.value)

/-- A check for an attribute lists the tags of its element in which the name is no word, and that
is right exactly if no tag without the attribute has the word elsewhere. -/
structure ReadsWords (tags : List AttributedTag) (element name : String)
    (found : List String) : Prop where
  found_eq : found = snippetsOf (tags.filter (·.isListed element name))
  right_iff : found = snippetsOf (tags.filter (·.isMissing element name)) ↔
    ∀ t ∈ tags, t.isMissing element name = true → t.isListed element name = true

theorem readsWords {element name : String} (hname : name.toList.all Char.isLower = true)
    (hne : name.toList ≠ []) (parts : List Part) :
    ReadsWords (attributedTags parts) element name
      ((eachLine (tagsWithout element name) 1
        (splitLines (unifyEndings (textOfParts parts)))).map (·.snippet)) := by
  rw [snippets_parts hname hne]
  exact ⟨rfl, snippets_eq_iff hname _⟩

theorem analyze_sourceOfParts (parts : List Part) :
    analyze (sourceOfParts parts) = analyzeText (unifyEndings (textOfParts parts)) := by
  rw [analyze, sourceOfParts, String.toList_ofList]

theorem idValues_eq_namedIds {attributes : List Attribute}
    (h : ∀ a ∈ attributes, ['i', 'd'] <:+ a.name → a.name = ['i', 'd'] ∧ a.value ≠ []) :
    idValues attributes = namedIds attributes := by
  refine congrArg (List.map Attribute.value) (List.filter_congr (fun a ha => ?_))
  rw [Bool.eq_iff_iff, Attribute.isReadAsId, Pattern.isRead_iff, beq_iff_eq]
  constructor
  · exact fun hread => (h a ha hread.1).1
  · intro hname
    have hsuffix : ['i', 'd'] <:+ a.name := hname ▸ List.suffix_rfl
    exact ⟨hsuffix, (h a ha hsuffix).2⟩

/-- **The checks read words, not attributes.**  The lists for `alt` and `href` are made of the words
of tags.  Ids are read between quotes, in every source; where quotes stand around values only and no
value ends in `id=`, that is in the attributes whose names end in `id`, empty values apart.  So the
ids are right if such attributes are named `id` and have values. -/
theorem checks_read_words (parts : List Part) :
    ReadsWords (attributedTags parts) "img" "alt"
        ((analyze (sourceOfParts parts)).imgsWithoutAlt.map (·.snippet)) ∧
      ReadsWords (attributedTags parts) "a" "href"
        ((analyze (sourceOfParts parts)).linksWithoutHref.map (·.snippet)) ∧
      (∀ source : String, (analyze source).duplicatedIds =
        repeatedIds (idsBetween (splitAt '"' (unifyEndings source.toList)))) ∧
      (parts.all Part.keepsQuotes = true →
        (analyze (sourceOfParts parts)).duplicatedIds =
          repeatedIds (idValues (attributesOf parts))) ∧
      (parts.all Part.keepsQuotes = true →
        (∀ a ∈ attributesOf parts, ['i', 'd'] <:+ a.name → a.name = ['i', 'd'] ∧ a.value ≠ []) →
          (analyze (sourceOfParts parts)).duplicatedIds =
            repeatedIds (namedIds (attributesOf parts))) := by
  have hids : parts.all Part.keepsQuotes = true → (analyze (sourceOfParts parts)).duplicatedIds =
      repeatedIds (idValues (attributesOf parts)) := by
    intro hquotes
    rw [analyze_sourceOfParts]
    exact duplicatedIds_parts hquotes
  refine ⟨?_, ?_, fun source => duplicatedIds_eq _, hids, fun hquotes hnames => ?_⟩
  · rw [analyze_sourceOfParts]
    exact readsWords rfl (by decide) parts
  · rw [analyze_sourceOfParts]
    exact readsWords rfl (by decide) parts
  · rw [hids hquotes, idValues_eq_namedIds hnames]

def spacedAttribute (name value : List Char) (named : name ≠ [])
    (nameChars : name.all isAttributeNameChar = true) (valueChars : value.all isValueChar = true) :
    Attribute :=
  ⟨⟨[' '], rfl⟩, by decide, name, named, nameChars, value, valueChars⟩

/-- An image whose file has the word in its name. -/
def altFileTag : AttributedTag where
  name := ⟨"img".toList, rfl, rfl⟩
  attributes := [spacedAttribute "src".toList "alt.png".toList (by decide) rfl rfl]
  tail := []
  tailChars := rfl

def idTag : AttributedTag where
  name := ⟨"p".toList, rfl, rfl⟩
  attributes := [spacedAttribute "id".toList "a".toList (by decide) rfl rfl]
  tail := []
  tailChars := rfl

/-- The word in the value keeps the image from the list, and the two ids are read. -/
theorem altFile_read_as_word :
    [Part.opening altFileTag, .opening idTag, .opening idTag].all Part.keepsQuotes = true ∧
      (analyze "<img src=\"alt.png\"><p id=\"a\"><p id=\"a\">").imgsWithoutAlt.map
        (·.snippet) = [] ∧
      (analyze "<img src=\"alt.png\"><p id=\"a\"><p id=\"a\">").duplicatedIds = ["a"] := by
  obtain ⟨himgs, -, -, -, hids⟩ :=
    checks_read_words [.opening altFileTag, .opening idTag, .opening idTag]
  have hquotes : [Part.opening altFileTag, .opening idTag, .opening idTag].all
      Part.keepsQuotes = true := by decide
  have hnames : ∀ a ∈ attributesOf [.opening altFileTag, .opening idTag, .opening idTag],
      ['i', 'd'] <:+ a.name → a.name = ['i', 'd'] ∧ a.value ≠ [] := by decide
  refine ⟨hquotes, ?_, ?_⟩
  · exact himgs.found_eq.trans (by decide)
  · exact (hids hquotes hnames).trans (by decide)

/-- The image has no attribute of the name, and it is not listed; nor is a link whose attribute is
only named like the one that it lacks, and another name that ends in `id` makes an id come twice. -/
theorem altFile_not_listed :
    altFileTag.has "alt" = false ∧ (analyze "<img src=\"alt.png\">").imgsWithoutAlt = [] ∧
      (analyze "<a data-href=\"x\">").linksWithoutHref = [] ∧
      (analyze "<p id=\"a\"><p data-id=\"a\">").duplicatedIds = ["a"] := by
  decide

end CodeSurvey.Html
