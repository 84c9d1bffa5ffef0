/-
# Selectors that a document does not use

An HTML document adds one list to the findings of a source and changes no other (`compared`).  It
holds the selectors that begin with a class or an id that the document does not use.

A document uses a class that is one of the tokens of a `class` value, and an id that is an `id`
value (`Uses`).  The values are what a scan over the text cut at its quotes reads, so a document
that is extended keeps the values that it has (`valuesOf_append`), and a selector that it uses stays
used:  the list gets shorter, if it changes at all.  An attribute that is not closed makes no
difference, as its value is not read before the closing quote is there.
-/
import CodeSurvey.Proofs.NameSet
import CodeSurvey.Proofs.Pattern.Quoted
import CodeSurvey.Proofs.Pattern.WholeWords
import CodeSurvey.Scan.Css

namespace CodeSurvey.Css

open Text Pattern

/-! ## The values of a document -/

/-- What a text in front of a value ends in. -/
def valueLead (name : String) : List Char := name.toList ++ ['=']

section Values

variable {name : String}

theorem readsValues_attributeValue (hname : '"' ∉ name.toList) :
    ReadsValues (valueLead name) (attributeValue name) := by
  have hlead : '"' ∉ valueLead name := by
    rw [valueLead, List.mem_append, List.mem_singleton, not_or]
    exact ⟨hname, by decide⟩
  refine readsValues_of_opener hlead (fun here out hout => ?_) (fun front back groups => ?_)
  · obtain ⟨mid, hmid, hout⟩ := mem_runs_append.1 hout
    rw [rest_of_mem_literal hmid, rest_of_mem_literal hout, valueLead, List.append_assoc]
    rfl
  · have hopen := first_literal name front ('=' :: '"' :: back) groups
    have hquote := first_literal "=\"" (front ++ name.toList) back groups
    have hboth := hopen.append hquote
    rw [List.append_assoc] at hboth
    rw [valueLead, List.append_assoc, List.append_assoc]
    exact hboth

/-- **The values of an attribute are read between quotes.** -/
theorem valuesOf_eq_valuesBetween (hname : '"' ∉ name.toList) (html : List Char) :
    valuesOf name html = valuesBetween (valueLead name) (splitAt '"' html) :=
  (readsValues_attributeValue hname).map_findAll html

/-- **A document that is extended keeps its values.** -/
theorem valuesOf_append (hname : '"' ∉ name.toList) (html more : List Char) :
    valuesOf name html <+: valuesOf name (html ++ more) := by
  rw [valuesOf_eq_valuesBetween hname, valuesOf_eq_valuesBetween hname]
  exact valuesBetween_splitAt_isPrefix (valueLead name) html more

end Values

/-! ## What a selector begins with -/

def BeginsWith (selector : String) (mark : Char) (name : List Char) : Prop :=
  ∃ back, selector.toList = mark :: (name ++ back) ∧ isMark mark = true ∧ name ≠ [] ∧
    (∀ c ∈ name, isNameChar c = true) ∧ back.head?.any isNameChar = false

section Selectors

variable {selector : String} {mark : Char} {name : List Char}

theorem anchored_selectorName : Anchored selectorName :=
  (anchored_textStart.append _).append _

theorem mark_of_mem_runs {here out : Place × Groups} (h : out ∈ selectorName.runs here) :
    ∃ mark c rest, here.1.rest = mark :: c :: rest ∧ isMark mark = true ∧ isNameChar c = true := by
  obtain ⟨last, hlast, hname⟩ := mem_runs_append.1 h
  obtain ⟨start, hstart, hmark⟩ := mem_runs_append.1 hlast
  obtain ⟨-, rfl⟩ := mem_runs_textStart.1 hstart
  obtain ⟨mark, hrest, hmark⟩ := rest_of_mem_one hmark
  obtain ⟨inner, hinner, rfl⟩ := mem_runs_group.1 hname
  obtain ⟨first, hfirst, -⟩ := mem_runs_append.1 hinner
  obtain ⟨c, hbehind, hc⟩ := rest_of_mem_one hfirst
  exact ⟨mark, c, first.1.rest, by rw [hrest, hbehind], hmark, hc⟩

theorem BeginsWith.find? (h : BeginsWith selector mark name) :
    ∃ m, selectorName.find? selector.toList = some m ∧ m.groupText 1 = name := by
  obtain ⟨back, htext, hmark, hne, hname, hback⟩ := h
  have hbegin : First textStart (Place.between [] (mark :: (name ++ back)), [])
      (Place.between [] (mark :: (name ++ back)), []) := rfl
  have hfound := ((hbegin.append (first_one hmark [] (name ++ back) [])).append
    (First.group 1 (first_some1 hname hne hback [mark] []))).matchAt?_eq
  rw [anchored_selectorName.find?_eq, htext]
  exact ⟨_, hfound, Span.text_between [mark] name back⟩

theorem beginsWith_of_find? {m : Match} (h : selectorName.find? selector.toList = some m) :
    ∃ mark, BeginsWith selector mark (m.groupText 1) := by
  have hrequires : Requires (fun place => ∃ mark c rest, place.rest = mark :: c :: rest ∧
      isMark mark = true ∧ isNameChar c = true) selectorName := fun _ _ => mark_of_mem_runs
  obtain ⟨mark, c, rest, htext, hmark, hc⟩ := anchored_selectorName.requires_of_find? hrequires h
  have htext : selector.toList = mark :: c :: rest := htext
  have hbegins : BeginsWith selector mark (c :: rest.takeWhile isNameChar) := by
    refine ⟨rest.dropWhile isNameChar, ?_, hmark, List.cons_ne_nil _ _,
      List.forall_mem_cons.2 ⟨hc, fun d hd => List.mem_takeWhile_imp hd⟩,
      head?_dropWhile_any isNameChar rest⟩
    rw [htext, List.cons_append, List.takeWhile_append_dropWhile]
  obtain ⟨n, hfound, hname⟩ := hbegins.find?
  obtain rfl := Option.some.inj (h.symm.trans hfound)
  exact ⟨mark, hname ▸ hbegins⟩

theorem BeginsWith.head? (h : BeginsWith selector mark name) :
    selector.toList.head? = some mark := by
  obtain ⟨back, htext, -⟩ := h
  rw [htext]
  rfl

theorem BeginsWith.ne_nil (h : BeginsWith selector mark name) : name ≠ [] := by
  obtain ⟨-, -, -, hne, -⟩ := h
  exact hne

/-- A mark that is not of a class is of an id. -/
theorem BeginsWith.eq_hash (h : BeginsWith selector mark name) (hmark : mark ≠ '.') :
    mark = '#' := by
  obtain ⟨-, -, hboth, -⟩ := h
  rw [isMark, Bool.or_eq_true, beq_iff_eq, beq_iff_eq] at hboth
  exact hboth.resolve_left hmark

end Selectors

/-! ## What a document uses -/

/-- A document uses the class of a token of a `class` value, and the id of an `id` value. -/
inductive Uses (html : List Char) : Char → List Char → Prop
  | ofClass {value token : List Char} : value ∈ valuesOf "class" html →
      IsRun (fun c => !isBlank c) value token → Uses html '.' token
  | ofId {id : List Char} : id ∈ valuesOf "id" html → Uses html '#' id

section Usage

variable {html : List Char} {selector : String} {mark : Char} {name : List Char}

theorem uses_class_iff : Uses html '.' name ↔
    ∃ value ∈ valuesOf "class" html, IsRun (fun c => !isBlank c) value name := by
  constructor
  · intro h
    cases h with
    | ofClass hvalue htoken => exact ⟨_, hvalue, htoken⟩
  · rintro ⟨value, hvalue, htoken⟩
    exact .ofClass hvalue htoken

theorem uses_id_iff : Uses html '#' name ↔ name ∈ valuesOf "id" html := by
  constructor
  · intro h
    cases h with
    | ofId hid => exact hid
  · exact .ofId

/-- **What a document uses, it uses when it is extended.** -/
theorem Uses.append (h : Uses html mark name) (more : List Char) :
    Uses (html ++ more) mark name := by
  cases h with
  | ofClass hvalue htoken =>
      exact .ofClass ((valuesOf_append (by decide) html more).subset hvalue) htoken
  | ofId hid => exact .ofId ((valuesOf_append (by decide) html more).subset hid)

theorem mem_classes_iff (hne : name ≠ []) :
    name ∈ (usageOf html).classes ↔ Uses html '.' name := by
  rw [uses_class_iff, usageOf, List.mem_flatMap]
  constructor
  · rintro ⟨value, hvalue, htoken⟩
    exact ⟨value, hvalue, (mem_splitWhere_iff hne).1 htoken⟩
  · rintro ⟨value, hvalue, htoken⟩
    exact ⟨value, hvalue, (mem_splitWhere_iff hne).2 htoken⟩

/-- **A selector is lacked that begins with what is not used.** -/
theorem lacks_iff : (usageOf html).lacks selector = true ↔
    ∃ mark name, BeginsWith selector mark name ∧ ¬Uses html mark name := by
  have hfound : ∀ mark name, BeginsWith selector mark name →
      ((usageOf html).lacks selector = true ↔ ¬Uses html mark name) := by
    intro mark name hbegins
    obtain ⟨m, hm, rfl⟩ := hbegins.find?
    rw [Usage.lacks, hm, hbegins.head?]
    by_cases hclass : mark = '.'
    · subst hclass
      have hdot : (some '.' == some '.') = true := beq_self_eq_true _
      dsimp only
      rw [if_pos hdot, Bool.not_eq_true', ← Bool.not_eq_true, List.contains_iff_mem,
        mem_classes_iff hbegins.ne_nil]
    · have hdot : ¬(some mark == some '.') = true := by simpa using hclass
      obtain rfl := hbegins.eq_hash hclass
      dsimp only
      rw [if_neg hdot, Bool.not_eq_true', ← Bool.not_eq_true, List.contains_iff_mem, uses_id_iff]
      exact Iff.rfl
  constructor
  · intro hlacks
    cases hm : selectorName.find? selector.toList with
    | none =>
        rw [Usage.lacks, hm] at hlacks
        cases hlacks
    | some m =>
        obtain ⟨mark, hbegins⟩ := beginsWith_of_find? hm
        exact ⟨mark, m.groupText 1, hbegins, (hfound _ _ hbegins).1 hlacks⟩
  · rintro ⟨mark, name, hbegins, hunused⟩
    exact (hfound mark name hbegins).2 hunused

theorem lacks_of_lacks_append {more : List Char}
    (h : (usageOf (html ++ more)).lacks selector = true) :
    (usageOf html).lacks selector = true := by
  obtain ⟨mark, name, hbegins, hunused⟩ := lacks_iff.1 h
  exact lacks_iff.2 ⟨mark, name, hbegins, fun huses => hunused (huses.append more)⟩

end Usage

/-! ## The list of unused selectors -/

theorem unusedSelectors_eq_filter (selectors : List String) (html : String) :
    unusedSelectors selectors html = selectors.eraseDups.filter (usageOf html.toList).lacks :=
  NameSet.toList_ofList_filter _ selectors

/-- What a document adds to the findings of a source. -/
structure ComparedWith (source html : String) : Prop where
  /-- No other list changes. -/
  frame : { analyzeWith source (some html) with unusedSelectors := [] } = analyze source
  /-- The unused selectors come in the order first seen, each once. -/
  firstSeen : (analyzeWith source (some html)).unusedSelectors.Sublist
    (analyze source).selectors.eraseDups
  nodup : (analyzeWith source (some html)).unusedSelectors.Nodup
  /-- They are the selectors that begin with a class or an id that the document does not use. -/
  unused : ∀ selector, selector ∈ (analyzeWith source (some html)).unusedSelectors ↔
    selector ∈ (analyze source).selectors ∧
      ∃ mark name, BeginsWith selector mark name ∧ ¬Uses html.toList mark name
  /-- A longer document leaves no more of them. -/
  antitone : ∀ more, (analyzeWith source (some (html ++ more))).unusedSelectors.Sublist
    (analyzeWith source (some html)).unusedSelectors

/-- **A document adds the list of the selectors that it does not use**, and a longer document lacks
some of these or all. -/
theorem compared (source html : String) : ComparedWith source html := by
  have hunused : ∀ html, (analyzeWith source (some html)).unusedSelectors =
      (analyze source).selectors.eraseDups.filter (usageOf html.toList).lacks :=
    fun html => unusedSelectors_eq_filter (analyze source).selectors html
  refine ⟨rfl, ?_, ?_, fun selector => ?_, fun more => ?_⟩
  · rw [hunused]
    exact List.filter_sublist
  · rw [hunused]
    exact (nodup_eraseDups _).filter _
  · rw [hunused, List.mem_filter, List.mem_eraseDups, lacks_iff]
  · rw [hunused, hunused, String.toList_append]
    exact List.monotone_filter_right _ (fun selector => lacks_of_lacks_append)

example : (analyzeWith ".a\x7b\x7d" (some "<p class=\"b a")).unusedSelectors = [".a"] ∧
    (analyzeWith ".a\x7b\x7d" (some ("<p class=\"b a" ++ "\">"))).unusedSelectors = [] := by
  decide +kernel

end CodeSurvey.Css
