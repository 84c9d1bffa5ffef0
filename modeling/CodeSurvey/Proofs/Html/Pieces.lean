/-
# Text and tags, piece by piece

A source written as characters, opening tags and closing tags is read piece by piece: what the two
patterns find of a tag does not depend on what stands around it (`scannedTags_textOf`).

The name of a tag may have hyphens here, but both patterns read letters and digits only.  So an
opening tag shows the part of its name before the first hyphen, and a closing tag shows its name if
that has no hyphen, and nothing if it has one.
-/
import CodeSurvey.Proofs.Html.Tags
import CodeSurvey.Proofs.Pattern.Searching
import CodeSurvey.Proofs.Text.Pieces
import CodeSurvey.Proofs.Text.Words

namespace CodeSurvey.Html

open Text Pattern

/-! ## Names -/

/-- A character of a tag name. -/
def isNameChar (c : Char) : Bool := c.isAlphanum || c == '-'

/-- The name of a tag: an ASCII letter or digit, then letters, digits and hyphens. -/
structure TagName where
  chars : List Char
  first : chars.head?.any Char.isAlphanum = true
  all : chars.all isNameChar = true

namespace TagName

variable (name : TagName)

def lower : List Char := lowerAscii name.chars

/-- The part of the name before its first hyphen. -/
def front : List Char := before (· == '-') name.chars

/-- The rest of the name, from its first hyphen on. -/
def behind : List Char := name.chars.dropWhile (fun c => !(c == '-'))

/-- Whether the name has a hyphen. -/
def hyphenated : Bool := name.chars.contains '-'

/-- What the scan knows an opening tag of the name by. -/
def entry : String := String.ofList (lowerAscii name.front)

/-- Whether elements of the name never take a closing tag. -/
def isVoid : Bool := voidElements.contains (String.ofList name.lower)

theorem front_append_behind : name.front ++ name.behind = name.chars :=
  List.takeWhile_append_dropWhile

theorem isAlphanum_of_mem_front : ∀ c ∈ name.front, c.isAlphanum = true := by
  intro c hc
  have hhyphen : (!(c == '-')) = true :=
    List.mem_takeWhile_imp (p := fun c => !(c == '-')) hc
  have hchar := List.all_eq_true.1 name.all c ((List.takeWhile_prefix _).subset hc)
  rw [Bool.not_eq_true'] at hhyphen
  rwa [isNameChar, hhyphen, Bool.or_false] at hchar

theorem front_ne_nil : name.front ≠ [] := by
  have hfirst := name.first
  rw [front, before]
  cases hchars : name.chars with
  | nil =>
      rw [hchars] at hfirst
      cases hfirst
  | cons c others =>
      rw [hchars] at hfirst
      have hhyphen : (!(c == '-')) = true := by
        rw [Bool.not_eq_true', beq_eq_false_iff_ne]
        rintro rfl
        exact Bool.false_ne_true hfirst
      rw [List.takeWhile_cons_of_pos (p := fun c => !(c == '-')) hhyphen]
      exact List.cons_ne_nil _ _

theorem behind_eq_nil (h : name.hyphenated = false) : name.behind = [] := by
  refine List.dropWhile_eq_nil_iff.2 (fun c hc => ?_)
  rw [Bool.not_eq_true', beq_eq_false_iff_ne]
  rintro rfl
  rw [hyphenated, List.contains_iff_mem.2 hc] at h
  cases h

theorem front_eq_chars (h : name.hyphenated = false) : name.front = name.chars := by
  rw [← name.front_append_behind, name.behind_eq_nil h, List.append_nil]

theorem behind_eq_cons (h : name.hyphenated = true) : ∃ others, name.behind = '-' :: others := by
  have hmem : '-' ∈ name.chars := List.contains_iff_mem.1 h
  have hne : name.behind ≠ [] := fun hnil =>
    absurd (List.dropWhile_eq_nil_iff.1 hnil '-' hmem) (by decide)
  obtain ⟨c, others, hbehind⟩ := List.exists_cons_of_ne_nil hne
  have hnot := List.head?_dropWhile_not (fun c => !(c == '-')) name.chars
  have hdrop : name.chars.dropWhile (fun c => !(c == '-')) = c :: others := hbehind
  rw [hdrop] at hnot
  have hc : (!(c == '-')) = false := hnot
  rw [Bool.not_eq_false', beq_iff_eq] at hc
  exact ⟨others, by rw [hbehind, hc]⟩

/-- Letters and digits end where the front does. -/
theorem head?_behind_append {rest : List Char} (hrest : rest.head?.any Char.isAlphanum = false) :
    (name.behind ++ rest).head?.any Char.isAlphanum = false := by
  cases hhyphenated : name.hyphenated with
  | false => rwa [name.behind_eq_nil hhyphenated]
  | true =>
      obtain ⟨others, hbehind⟩ := name.behind_eq_cons hhyphenated
      rw [hbehind]
      rfl

theorem not_mem {c : Char} (hc : isNameChar c = false) : c ∉ name.chars := by
  intro hmem
  rw [List.all_eq_true.1 name.all c hmem] at hc
  cases hc

end TagName

/-! ## Tags -/

/-- A character that neither ends a line nor is an angle bracket. -/
def isAttributeChar (c : Char) : Bool := c != '<' && c != '>' && c != '\r' && c != '\n'

/-- What an opening tag has behind its name: nothing, or a text that begins with no character of a
name, such as a space. -/
structure Attributes where
  chars : List Char
  first : chars.head?.any isNameChar = false
  all : chars.all isAttributeChar = true

/-- A blank that ends no line. -/
def isGapChar (c : Char) : Bool := isBlank c && c != '\r' && c != '\n'

/-- What a closing tag has behind its name. -/
structure Gap where
  chars : List Char
  all : chars.all isGapChar = true

theorem Attributes.ne_of_mem {attributes : Attributes} {c : Char} (h : c ∈ attributes.chars) :
    c ≠ '<' ∧ c ≠ '>' ∧ c ≠ '\r' ∧ c ≠ '\n' := by
  have hchar := List.all_eq_true.1 attributes.all c h
  simpa only [isAttributeChar, Bool.and_eq_true, bne_iff_ne, and_assoc] using hchar

theorem Gap.blank_of_mem {gap : Gap} {c : Char} (h : c ∈ gap.chars) :
    isBlank c = true ∧ c ≠ '\r' ∧ c ≠ '\n' := by
  have hchar := List.all_eq_true.1 gap.all c h
  simpa only [isGapChar, Bool.and_eq_true, bne_iff_ne, and_assoc] using hchar

structure OpeningTag where
  name : TagName
  attributes : Attributes

structure ClosingTag where
  name : TagName
  gap : Gap

namespace OpeningTag

variable (tag : OpeningTag)

def text : List Char := '<' :: (tag.name.chars ++ (tag.attributes.chars ++ ['>']))

/-- Whether the attributes, blanks at the end aside, end in a slash. -/
def closesItself : Bool := (trimEndOf isBlank tag.attributes.chars).getLast? == some '/'

/-- Whether the scan leaves the tag open. -/
def isPushed : Bool := !voidElements.contains tag.name.entry && !tag.closesItself

end OpeningTag

def ClosingTag.text (tag : ClosingTag) : List Char :=
  '<' :: '/' :: (tag.name.chars ++ (tag.gap.chars ++ ['>']))

/-- A piece of a source. -/
inductive Piece where
  | char (c : Char) (plain : c ≠ '<' ∧ c ≠ '>')
  | opening (tag : OpeningTag)
  | closing (tag : ClosingTag)

def Piece.text : Piece → List Char
  | char c _ => [c]
  | opening tag => tag.text
  | closing tag => tag.text

def Piece.opening? : Piece → Option OpeningTag
  | opening tag => some tag
  | _ => none

def textOf (pieces : List Piece) : List Char := pieces.flatMap Piece.text

def Piece.tag? (number : Nat) : Piece → Option Tag
  | char _ _ => none
  | opening tag => if tag.isPushed then some (.opening ⟨tag.name.entry, number⟩) else none
  | closing tag =>
    if tag.name.hyphenated then none else some (.closing ⟨tag.name.entry, number⟩)

/-- The tags of pieces that stand on one line, in order. -/
def tagsOn (number : Nat) (pieces : List Piece) : List Tag := pieces.filterMap (Piece.tag? number)

/-! ## Where a name ends -/

theorem not_isAlphanum_of_isBlank {c : Char} (h : isBlank c = true) : c.isAlphanum = false := by
  have hall : ∀ n ∈ blankCodes, (Char.ofNat n).isAlphanum = false := by decide
  have hc := hall c.toNat (mem_blankCodes h)
  rwa [Char.ofNat_toNat] at hc

theorem Attributes.head?_append (attributes : Attributes) (rest : List Char) :
    (attributes.chars ++ '>' :: rest).head?.any Char.isAlphanum = false := by
  have hfirst := attributes.first
  cases hchars : attributes.chars with
  | nil => rfl
  | cons c others =>
      rw [hchars] at hfirst
      have hc : (c.isAlphanum || c == '-') = false := hfirst
      exact (Bool.or_eq_false_iff.1 hc).1

theorem Gap.head?_append (gap : Gap) (rest : List Char) :
    (gap.chars ++ '>' :: rest).head?.any Char.isAlphanum = false := by
  cases hchars : gap.chars with
  | nil => rfl
  | cons c others =>
      have hc : c ∈ gap.chars := by
        rw [hchars]
        exact List.mem_cons_self
      exact not_isAlphanum_of_isBlank (Gap.blank_of_mem hc).1

/-! ## What the patterns require -/

theorem requires_openPattern :
    Requires (fun place => ∃ c rest, place.rest = '<' :: c :: rest ∧ c.isAlphanum = true)
      openPattern := by
  refine Requires.append (Requires.append ?_ _) _
  intro here out hout
  obtain ⟨mid, hmid, hgroup⟩ := mem_runs_append.1 hout
  obtain ⟨d, hd, hlt⟩ := rest_of_mem_one hmid
  obtain ⟨inner, hinner, -⟩ := mem_runs_group.1 hgroup
  obtain ⟨next, hnext, -⟩ := mem_runs_append.1 hinner
  obtain ⟨c, hc, halnum⟩ := rest_of_mem_one hnext
  exact ⟨c, next.1.rest, by rw [hd, beq_iff_eq.1 hlt, hc], halnum⟩

theorem requires_closePattern :
    Requires (fun place => ∃ name gap rest,
        place.rest = '<' :: '/' :: (name ++ (gap ++ '>' :: rest)) ∧
          (∀ c ∈ name, c.isAlphanum = true) ∧ ∀ c ∈ gap, isBlank c = true)
      closePattern := by
  intro here out hout
  obtain ⟨third, hthird, hend⟩ := mem_runs_append.1 hout
  obtain ⟨second, hsecond, hgap⟩ := mem_runs_append.1 hthird
  obtain ⟨start, hstart, hgroup⟩ := mem_runs_append.1 hsecond
  obtain ⟨inner, hinner, rfl⟩ := mem_runs_group.1 hgroup
  have hover : tagName.Over (fun c => c.isAlphanum = true) := ⟨fun _ h => h, fun _ h => h⟩
  obtain ⟨name, hname, halnum⟩ := takes_of_mem_runs hover hinner
  obtain ⟨gap, htakes, hblank, -⟩ := takes_of_mem_many hgap
  obtain ⟨c, hc, hgt⟩ := rest_of_mem_one hend
  refine ⟨name, gap, out.1.rest, ?_, halnum, hblank⟩
  rw [rest_of_mem_literal hstart, hname.rest, htakes.rest, hc, beq_iff_eq.1 hgt]
  rfl

theorem not_openPattern {front rest : List Char} (h : rest.head?.any Char.isAlphanum = false) :
    openPattern.matchAt? (Place.between front ('<' :: rest)) = none := by
  refine matchAt?_eq_none_of_requires requires_openPattern ?_
  rintro ⟨c, others, hrest, hc⟩
  obtain ⟨-, hothers⟩ := List.cons.inj hrest
  rw [hothers] at h
  exact Bool.false_ne_true (h.symm.trans hc)

theorem not_closePattern_of_head {front rest : List Char} (h : rest.head? ≠ some '/') :
    closePattern.matchAt? (Place.between front ('<' :: rest)) = none := by
  refine matchAt?_eq_none_of_requires requires_closePattern ?_
  rintro ⟨name, gap, behind, hrest, -, -⟩
  obtain ⟨-, hothers⟩ := List.cons.inj hrest
  rw [hothers] at h
  exact h rfl

theorem not_closePattern_of_hyphen {front part rest : List Char}
    (hpart : ∀ c ∈ part, c.isAlphanum = true) :
    closePattern.matchAt? (Place.between front ('<' :: '/' :: (part ++ '-' :: rest))) = none := by
  refine matchAt?_eq_none_of_requires requires_closePattern ?_
  rintro ⟨name, gap, behind, hrest, hname, hgap⟩
  obtain ⟨-, hslash⟩ := List.cons.inj hrest
  obtain ⟨-, hsame⟩ := List.cons.inj hslash
  -- of hyphen and bracket, which one comes first in the rest of the tag?
  have halnum : ∀ c : Char, c.isAlphanum = true → (c != '-' && c != '>') = true := by
    intro c hc
    rw [Bool.and_eq_true, bne_iff_ne, bne_iff_ne]
    constructor
    · rintro rfl
      exact Bool.false_ne_true hc
    · rintro rfl
      exact Bool.false_ne_true hc
  have hblank : ∀ c : Char, isBlank c = true → (c != '-' && c != '>') = true := by
    intro c hc
    rw [Bool.and_eq_true, bne_iff_ne, bne_iff_ne]
    constructor
    · rintro rfl
      exact Bool.false_ne_true hc
    · rintro rfl
      exact Bool.false_ne_true hc
  have hfirst := congrArg (List.dropWhile (fun c => c != '-' && c != '>')) hsame
  rw [List.dropWhile_append_of_pos (fun c hc => halnum c (hpart c hc)),
    List.dropWhile_append_of_pos (fun c hc => halnum c (hname c hc)),
    List.dropWhile_append_of_pos (fun c hc => hblank c (hgap c hc))] at hfirst
  cases (List.cons.inj hfirst).1

theorem OpeningTag.not_closePattern (tag : OpeningTag) (front rest : List Char) :
    closePattern.matchAt? (Place.between front (tag.text ++ rest)) = none := by
  refine not_closePattern_of_head (fun hslash => ?_)
  have hfirst := tag.name.first
  cases hname : tag.name.chars with
  | nil =>
      rw [hname] at hfirst
      cases hfirst
  | cons c others =>
      rw [hname] at hfirst hslash
      obtain rfl := Option.some.inj hslash
      exact Bool.false_ne_true hfirst

theorem ClosingTag.not_closePattern (tag : ClosingTag) (hname : tag.name.hyphenated = true)
    (front rest : List Char) :
    closePattern.matchAt? (Place.between front (tag.text ++ rest)) = none := by
  obtain ⟨others, hothers⟩ := tag.name.behind_eq_cons hname
  rw [ClosingTag.text, ← tag.name.front_append_behind, hothers]
  simp only [List.cons_append, List.append_assoc]
  exact not_closePattern_of_hyphen tag.name.isAlphanum_of_mem_front

/-! ## What the patterns find of a tag -/

/-- What a match shows of an opening tag. -/
structure Shows (tag : OpeningTag) (m : Match) : Prop where
  text : m.text = tag.text
  name : m.groupText 1 = tag.name.front
  behind : m.groupText 2 = tag.name.behind ++ tag.attributes.chars

theorem matchAt?_opening (tag : OpeningTag) (front rest : List Char) :
    ∃ m, openPattern.matchAt? (Place.between front (tag.text ++ rest)) = some m ∧
      m.stop = front.length + tag.text.length ∧ Shows tag m := by
  have hhead : ((tag.name.behind ++ tag.attributes.chars) ++ '>' :: rest).head?.any
      Char.isAlphanum = false := by
    rw [List.append_assoc]
    exact tag.name.head?_behind_append (tag.attributes.head?_append rest)
  have hbehind : ∀ c ∈ tag.name.behind ++ tag.attributes.chars, (c != '>') = true := by
    intro c hc
    rw [bne_iff_ne]
    rcases List.mem_append.1 hc with hc | hc
    · rintro rfl
      exact tag.name.not_mem rfl ((List.dropWhile_suffix _).subset hc)
    · exact (Attributes.ne_of_mem hc).2.1
  have hbracket : ('>' :: rest).head?.any (fun c => c != '>') = false := rfl
  have hname := First.group 1 (first_some1 tag.name.isAlphanum_of_mem_front tag.name.front_ne_nil
    hhead (front ++ ['<']) [])
  have hfirst := ((first_char '<' front _ []).append hname).append
    (First.group 2 (first_many hbehind hbracket _ _))
  have hm := (First.append hfirst (first_char '>' _ rest _)).matchAt?_eq
  have htext : '<' :: (tag.name.front ++ ((tag.name.behind ++ tag.attributes.chars) ++
      '>' :: rest)) = tag.text ++ rest := by
    rw [OpeningTag.text, ← tag.name.front_append_behind]
    simp only [List.append_assoc, List.cons_append, List.nil_append]
  have hstop : front ++ ['<'] ++ tag.name.front ++ (tag.name.behind ++ tag.attributes.chars) ++
      ['>'] = front ++ tag.text := by
    rw [OpeningTag.text, ← tag.name.front_append_behind]
    simp only [List.append_assoc, List.cons_append, List.nil_append]
  rw [htext, hstop] at hm
  refine ⟨_, hm, List.length_append, ⟨?_, ?_, ?_⟩⟩
  · exact Span.text_between front tag.text rest
  · exact Span.text_between _ tag.name.front _
  · exact Span.text_between _ _ ('>' :: rest)

section Shows

variable {tag : OpeningTag} {m : Match}

theorem Shows.nameOf_eq (h : Shows tag m) : nameOf m = tag.name.entry := by
  rw [nameOf, h.name]
  rfl

theorem closesItself_eq (tag : OpeningTag) :
    tag.closesItself =
      (tag.attributes.chars.reverse.find? (fun c => !isBlank c) == some '/') := by
  rw [OpeningTag.closesItself, getLast?_trimEndOf_eq_find?]

/-- A tag that ends in a slash and the bracket has the slash behind its name. -/
theorem closesItself_of_text (h : ['>', '/'].isPrefixOf tag.text.reverse = true) :
    tag.closesItself = true := by
  have hreverse : tag.text.reverse =
      '>' :: (tag.attributes.chars.reverse ++ (tag.name.chars.reverse ++ ['<'])) := by
    rw [OpeningTag.text]
    simp only [List.reverse_cons, List.reverse_append, List.reverse_nil, List.nil_append,
      List.cons_append, List.append_assoc]
  obtain ⟨rest, hrest⟩ := List.isPrefixOf_iff_prefix.1 h
  rw [hreverse] at hrest
  have hslash := (List.cons.inj hrest).2
  rw [closesItself_eq]
  cases hattributes : tag.attributes.chars.reverse with
  | cons c others =>
      rw [hattributes] at hslash
      rw [← (List.cons.inj hslash).1]
      rfl
  | nil =>
      -- otherwise the slash would be the last character of the name
      rw [hattributes] at hslash
      cases hname : tag.name.chars.reverse with
      | nil =>
          rw [hname] at hslash
          cases (List.cons.inj hslash).1
      | cons c others =>
          rw [hname] at hslash
          have hmem : '/' ∈ tag.name.chars := by
            rw [← List.mem_reverse, hname, ← (List.cons.inj hslash).1]
            exact List.mem_cons_self
          exact absurd hmem (tag.name.not_mem rfl)

theorem Shows.isSelfClosing_eq (h : Shows tag m) : isSelfClosing m = tag.closesItself := by
  have hbehind : ((trim (m.groupText 2)).getLast? == some '/') = tag.closesItself := by
    rw [h.behind, getLast?_trim, closesItself_eq, List.reverse_append, List.find?_append]
    cases hfound : tag.attributes.chars.reverse.find? (fun c => !isBlank c) with
    | some c => rfl
    | none =>
        -- the name has no slash to end in
        rw [Option.none_or, Option.none_beq_some, beq_eq_false_iff_ne]
        intro hslash
        have hmem := List.mem_reverse.1 (List.mem_of_find?_eq_some hslash)
        exact tag.name.not_mem rfl ((List.dropWhile_suffix _).subset hmem)
  rw [isSelfClosing, h.text, hbehind]
  cases hslash : ['>', '/'].isPrefixOf tag.text.reverse with
  | false => rfl
  | true => rw [closesItself_of_text hslash, Bool.or_true]

theorem Shows.isPushed_eq (h : Shows tag m) : Html.isPushed m = tag.isPushed := by
  rw [Html.isPushed, h.nameOf_eq, h.isSelfClosing_eq]
  rfl

end Shows

/-! ## The search -/

def Bracketed (text : List Char) : Prop :=
  ∃ inner, text = '<' :: (inner ++ ['>']) ∧ ∀ c ∈ inner, c ≠ '<' ∧ c ≠ '\r' ∧ c ≠ '\n'

theorem TagName.plain (name : TagName) : ∀ c ∈ name.chars, c ≠ '<' ∧ c ≠ '\r' ∧ c ≠ '\n' :=
  fun _ hc => ⟨fun h => name.not_mem rfl (h ▸ hc), fun h => name.not_mem rfl (h ▸ hc),
    fun h => name.not_mem rfl (h ▸ hc)⟩

theorem OpeningTag.bracketed (tag : OpeningTag) : Bracketed tag.text := by
  refine ⟨tag.name.chars ++ tag.attributes.chars, ?_, List.forall_mem_append.2 ⟨?_, ?_⟩⟩
  · rw [OpeningTag.text, List.append_assoc]
  · exact tag.name.plain
  · exact fun c hc => ⟨(Attributes.ne_of_mem hc).1, (Attributes.ne_of_mem hc).2.2⟩

theorem ClosingTag.bracketed (tag : ClosingTag) : Bracketed tag.text := by
  refine ⟨'/' :: (tag.name.chars ++ tag.gap.chars), ?_,
    List.forall_mem_cons.2 ⟨by decide, List.forall_mem_append.2 ⟨?_, ?_⟩⟩⟩
  · rw [ClosingTag.text, List.cons_append, List.append_assoc]
  · exact tag.name.plain
  · intro c hc
    obtain ⟨hblank, hends⟩ := Gap.blank_of_mem hc
    refine ⟨?_, hends⟩
    rintro rfl
    exact absurd hblank (by decide)

theorem textOf_cons (piece : Piece) (pieces : List Piece) :
    textOf (piece :: pieces) = piece.text ++ textOf pieces :=
  List.flatMap_cons

section Search

variable {pattern : Pattern} {front rest : List Char}

/-- A tag that does not match is passed over, as no other begins within it. -/
theorem findBehind_tag (hpattern : Requires (fun place => place.rest.head?.any (· == '<') = true)
      pattern) {text : List Char} (htext : Bracketed text)
    (hnone : pattern.matchAt? (Place.between front (text ++ rest)) = none) :
    pattern.findBehind front (text ++ rest) = pattern.findBehind (front ++ text) rest := by
  obtain ⟨inner, rfl, hinner⟩ := htext
  have hpass : ∀ c ∈ inner ++ ['>'], (c == '<') = false := by
    intro c hc
    rw [beq_eq_false_iff_ne]
    rcases List.mem_append.1 hc with hc | hc
    · exact (hinner c hc).1
    · rw [List.mem_singleton.1 hc]
      decide
  rw [List.cons_append] at hnone ⊢
  rw [findBehind_cons hnone, findBehind_pass hpattern hpass, List.append_assoc]
  rfl

theorem findBehind_found {text : List Char} (htext : Bracketed text) {m : Match}
    (hm : pattern.matchAt? (Place.between front (text ++ rest)) = some m)
    (hstop : m.stop = front.length + text.length) :
    pattern.findBehind front (text ++ rest) = m :: pattern.findBehind (front ++ text) rest := by
  obtain ⟨inner, rfl, -⟩ := htext
  exact findBehind_match hm hstop

theorem findBehind_char (hpattern : Requires (fun place => place.rest.head?.any (· == '<') = true)
      pattern) {c : Char} (hc : c ≠ '<') :
    pattern.findBehind front (c :: rest) = pattern.findBehind (front ++ [c]) rest :=
  findBehind_pass hpattern (List.forall_mem_singleton.2 (beq_eq_false_iff_ne.2 hc))

end Search

theorem begins_openPattern :
    Requires (fun place => place.rest.head?.any (· == '<') = true) openPattern := by
  intro here out hout
  obtain ⟨c, rest, hrest, -⟩ := requires_openPattern here out hout
  rw [hrest]
  rfl

theorem begins_closePattern :
    Requires (fun place => place.rest.head?.any (· == '<') = true) closePattern := by
  intro here out hout
  obtain ⟨name, gap, rest, hrest, -, -⟩ := requires_closePattern here out hout
  rw [hrest]
  rfl

theorem matchAt?_closing (tag : ClosingTag) (hname : tag.name.hyphenated = false)
    (front rest : List Char) :
    ∃ m, closePattern.matchAt? (Place.between front (tag.text ++ rest)) = some m ∧
      m.stop = front.length + tag.text.length ∧ nameOf m = tag.name.entry := by
  have halnum := tag.name.isAlphanum_of_mem_front
  have hne := tag.name.front_ne_nil
  rw [tag.name.front_eq_chars hname] at halnum hne
  have hblank : ∀ c ∈ tag.gap.chars, isBlank c = true := fun c hc => (Gap.blank_of_mem hc).1
  have hbracket : ('>' :: rest).head?.any isBlank = false := rfl
  have hgroup := First.group 1 (first_some1 halnum hne (tag.gap.head?_append rest)
    (front ++ ['<', '/']) [])
  have hfirst := (((first_literal "</" front _ []).append hgroup).append
    (first_many hblank hbracket _ _)).append (first_char '>' _ rest _)
  have hm := hfirst.matchAt?_eq
  have htext : "</".toList ++ (tag.name.chars ++ (tag.gap.chars ++ '>' :: rest)) =
      tag.text ++ rest := by
    rw [ClosingTag.text]
    simp only [List.append_assoc, List.cons_append, List.nil_append]
    rfl
  have hstop : front ++ ['<', '/'] ++ tag.name.chars ++ tag.gap.chars ++ ['>'] =
      front ++ tag.text := by
    rw [ClosingTag.text]
    simp only [List.append_assoc, List.cons_append, List.nil_append]
  rw [htext, hstop] at hm
  refine ⟨_, hm, List.length_append, ?_⟩
  rw [TagName.entry, tag.name.front_eq_chars hname]
  exact congrArg (fun chars => String.ofList (lowerAscii chars))
    (Span.text_between _ tag.name.chars _)

theorem tagsOn_cons (number : Nat) (piece : Piece) (pieces : List Piece) :
    tagsOn number (piece :: pieces) = (piece.tag? number).toList ++ tagsOn number pieces := by
  rw [tagsOn, List.filterMap_cons]
  cases piece.tag? number <;> rfl

theorem tagsOn_append (number : Nat) (front back : List Piece) :
    tagsOn number (front ++ back) = tagsOn number front ++ tagsOn number back :=
  List.filterMap_append

def openingsOf (pieces : List Piece) : List OpeningTag := pieces.filterMap Piece.opening?

/-- **The matches show the opening tags**, piece by piece. -/
theorem shows_textOf (front : List Char) (pieces : List Piece) :
    List.Forall₂ Shows (openingsOf pieces) (openPattern.findBehind front (textOf pieces)) := by
  induction pieces generalizing front with
  | nil => exact .nil
  | cons piece pieces ih =>
      rw [textOf_cons]
      cases piece with
      | char c plain =>
          rw [Piece.text, List.singleton_append, findBehind_char begins_openPattern plain.1]
          exact ih _
      | opening tag =>
          obtain ⟨m, hm, hstop, hshows⟩ := matchAt?_opening tag front (textOf pieces)
          rw [Piece.text, findBehind_found tag.bracketed hm hstop]
          exact .cons hshows (ih _)
      | closing tag =>
          rw [Piece.text, findBehind_tag begins_openPattern tag.bracketed (not_openPattern rfl)]
          exact ih _

theorem map_filter_of_shows {β : Type} {tags : List OpeningTag} {found : List Match}
    (h : List.Forall₂ Shows tags found) {p : OpeningTag → Bool} {q : Match → Bool}
    {f : OpeningTag → β} {g : Match → β}
    (hsame : ∀ tag m, Shows tag m → q m = p tag ∧ g m = f tag) :
    (found.filter q).map g = (tags.filter p).map f := by
  induction h with
  | nil => rfl
  | cons hshows _ ih =>
      obtain ⟨htest, hresult⟩ := hsame _ _ hshows
      rw [List.filter_cons, List.filter_cons, htest]
      split
      · rw [List.map_cons, List.map_cons, hresult, ih]
      · exact ih

theorem openings_tagsOn (number : Nat) (pieces : List Piece) :
    ((openingsOf pieces).filter OpeningTag.isPushed).map
        (fun tag => Tag.opening ⟨tag.name.entry, number⟩) =
      (tagsOn number pieces).filter Tag.isOpening := by
  induction pieces with
  | nil => rfl
  | cons piece pieces ih =>
      rw [tagsOn_cons, List.filter_append, ← ih]
      cases piece with
      | char c plain => rfl
      | opening tag =>
          have hfirst : openingsOf (.opening tag :: pieces) = tag :: openingsOf pieces := rfl
          rw [hfirst, List.filter_cons, Piece.tag?]
          split
          · rfl
          · rfl
      | closing tag =>
          rw [Piece.tag?]
          split
          · rfl
          · rfl

theorem opened_textOf (number : Nat) (front : List Char) (pieces : List Piece) :
    ((openPattern.findBehind front (textOf pieces)).filter isPushed).map
        (fun m => Tag.opening ⟨nameOf m, number⟩) =
      (tagsOn number pieces).filter Tag.isOpening := by
  rw [← openings_tagsOn]
  refine map_filter_of_shows (shows_textOf front pieces) (fun tag m hshows => ?_)
  exact ⟨hshows.isPushed_eq, by rw [hshows.nameOf_eq]⟩

theorem closed_textOf (number : Nat) (front : List Char) (pieces : List Piece) :
    (closePattern.findBehind front (textOf pieces)).map
        (fun m => Tag.closing ⟨nameOf m, number⟩) =
      (tagsOn number pieces).filter Tag.isClosing := by
  induction pieces generalizing front with
  | nil => rfl
  | cons piece pieces ih =>
      rw [textOf_cons, tagsOn_cons, List.filter_append]
      cases piece with
      | char c plain =>
          rw [Piece.text, List.singleton_append, findBehind_char begins_closePattern plain.1, ih]
          rfl
      | opening tag =>
          have hnone : ((Piece.opening tag).tag? number).toList.filter Tag.isClosing = [] := by
            rw [Piece.tag?]
            split <;> rfl
          rw [Piece.text, findBehind_tag begins_closePattern tag.bracketed
            (tag.not_closePattern front _), ih, hnone, List.nil_append]
      | closing tag =>
          rw [Piece.text, Piece.tag?]
          cases hname : tag.name.hyphenated with
          | false =>
              obtain ⟨m, hm, hstop, hnameOf⟩ := matchAt?_closing tag hname front (textOf pieces)
              rw [findBehind_found tag.bracketed hm hstop, List.map_cons, ih, hnameOf]
              rfl
          | true =>
              rw [findBehind_tag begins_closePattern tag.bracketed
                (tag.not_closePattern hname front _), ih]
              rfl

/-- **A line of pieces is scanned piece by piece.** -/
theorem scannedTags_textOf (number : Nat) (pieces : List Piece) :
    scannedTags number (textOf pieces) = openingsFirst (tagsOn number pieces) := by
  rw [openingsFirst, ← opened_textOf number [], ← closed_textOf number [], scannedTags, openedTags,
    closedTags, List.map_map, List.map_map]
  rfl

/-! ## No tag is left incomplete -/

theorem requires_incompletePattern :
    Requires (fun place => ∃ more, place.rest = '<' :: more ∧ '>' ∉ more) incompletePattern := by
  intro here out hout
  have hover : incompletePattern.Over (· ≠ '>') := by
    have halnum : ∀ c : Char, c.isAlphanum = true → c ≠ '>' := by
      rintro c hc rfl
      exact Bool.false_ne_true hc
    refine ⟨⟨⟨?_, halnum, halnum⟩, fun c hc => bne_iff_ne.1 hc⟩, trivial⟩
    intro c hc
    rw [beq_iff_eq.1 hc]
    decide
  obtain ⟨taken, htakes, htaken⟩ := takes_of_mem_runs hover hout
  obtain ⟨last, hlast, hend⟩ := mem_runs_append.1 hout
  obtain ⟨next, hnext, -⟩ := mem_runs_append.1 hlast
  obtain ⟨mid, hmid, -⟩ := mem_runs_append.1 hnext
  obtain ⟨c, hc, hlt⟩ := rest_of_mem_one hmid
  have hempty : out.1.rest = [] := by
    rw [runs] at hend
    split at hend
    · rename_i h
      rw [List.mem_singleton.1 hend]
      exact List.isEmpty_iff.1 h
    · cases hend
  have hrest := htakes.rest
  rw [hempty, List.append_nil, hc, beq_iff_eq.1 hlt] at hrest
  refine ⟨mid.1.rest, by rw [hc, beq_iff_eq.1 hlt], fun hmem => ?_⟩
  exact htaken '>' (by rw [← hrest]; exact List.mem_cons_of_mem _ hmem) rfl

theorem Piece.closes (piece : Piece) {front back : List Char}
    (h : piece.text = front ++ '<' :: back) : '>' ∈ back := by
  have hbracketed : ∀ text, Bracketed text → text = front ++ '<' :: back → '>' ∈ back := by
    rintro text ⟨inner, rfl, -⟩ htext
    have hlast := congrArg List.getLast? htext
    rw [← List.cons_append, List.getLast?_concat, List.getLast?_append_of_ne_nil _
      (List.cons_ne_nil _ _)] at hlast
    cases back with
    | nil => cases hlast
    | cons c back =>
        rw [List.getLast?_cons_cons] at hlast
        exact List.mem_of_getLast? hlast.symm
  cases piece with
  | char c plain =>
      have hmem : '<' ∈ [c] := by
        rw [show [c] = front ++ '<' :: back from h]
        simp
      exact absurd (List.mem_singleton.1 hmem).symm plain.1
  | opening tag => exact hbracketed _ tag.bracketed h
  | closing tag => exact hbracketed _ tag.bracketed h

theorem closes_textOf {pieces : List Piece} {front back : List Char}
    (h : textOf pieces = front ++ '<' :: back) : '>' ∈ back := by
  induction pieces generalizing front with
  | nil => exact absurd h (by simp [textOf])
  | cons piece pieces ih =>
      rw [textOf_cons] at h
      rcases List.append_eq_append_iff.1 h with ⟨more, -, hrest⟩ | ⟨more, hpiece, hrest⟩
      · exact ih hrest
      · cases more with
        | nil =>
            have hhere : textOf pieces = [] ++ '<' :: back := hrest.symm
            exact ih hhere
        | cons c more =>
            obtain ⟨rfl, rfl⟩ := List.cons.inj hrest
            exact List.mem_append_left _ (piece.closes hpiece)

theorem incomplete_textOf (number : Nat) (pieces : List Piece) :
    incomplete number (textOf pieces) = [] := by
  have hnot : ¬incompletePattern.occurs (trim (textOf pieces)) = true := by
    intro hoccurs
    obtain ⟨front, back, htrim, hm⟩ := occurs_iff.1 hoccurs
    obtain ⟨m, hm⟩ := Option.isSome_iff_exists.1 hm
    obtain ⟨out, hout, -⟩ := Option.map_eq_some_iff.1 hm
    obtain ⟨more, hback, hmore⟩ := requires_incompletePattern _ _ (List.mem_of_head? hout)
    have hback : back = '<' :: more := hback
    obtain ⟨gap, hgap, hblank⟩ := trimEndOf_append isBlank (trimStartOf isBlank (textOf pieces))
    -- blanks that were trimmed close no bracket either
    have htext : textOf pieces =
        ((textOf pieces).takeWhile isBlank ++ front) ++ '<' :: (more ++ gap) := by
      conv_lhs => rw [← List.takeWhile_append_dropWhile (p := isBlank) (l := textOf pieces)]
      have hstart : (textOf pieces).dropWhile isBlank = front ++ '<' :: more ++ gap := by
        rw [← hback, ← htrim]
        exact hgap
      rw [hstart]
      simp only [List.append_assoc, List.cons_append]
    rcases List.mem_append.1 (closes_textOf htext) with hmem | hmem
    · exact hmore hmem
    · exact absurd (hblank _ hmem) (by decide)
  rw [incomplete, if_neg hnot]

end CodeSurvey.Html
