/-
# Groups that cut no word

A group begins where what stands in front of it in the pattern has led to, and it ends where what
stands behind it can run.  If the one leads only to places between words and the other runs only at
such places, no word goes on across an end of the group (`CutsOut.span_of_matchAt?`).  Which parts
of a pattern do so is told by the characters that they take: an edge of a word is such a place, and
so is every place beside a character that is of no word.
-/
import CodeSurvey.Proofs.Pattern.Places
import CodeSurvey.Proofs.Text.Words

namespace CodeSurvey

open Text

/-! ## Places between words -/

def Place.BetweenWords (place : Place) : Prop :=
  place.before.any isWordChar = false ∨ place.rest.head?.any isWordChar = false

theorem Place.betweenWords_between {front rest : List Char} :
    (Place.between front rest).BetweenWords ↔
      front.getLast?.any isWordChar = false ∨ rest.head?.any isWordChar = false := by
  rw [BetweenWords, between, lastOf_eq_getLast?]

theorem Place.betweenWords_of_atWordEdge {place : Place} (h : place.atWordEdge = true) :
    place.BetweenWords := by
  unfold atWordEdge at h
  unfold BetweenWords
  cases hbefore : place.before.any isWordChar with
  | false => exact Or.inl rfl
  | true =>
      rw [hbefore] at h
      exact Or.inr (by simpa using h)

/-- A span stands in a text between what is before and what is behind it, and no word goes on
across one of its ends. -/
structure Span.CutOut (span : Span) (text before behind : List Char) : Prop where
  text_eq : text = before ++ (span.text ++ behind)
  offset_eq : span.start.offset = before.length
  starts : before.getLast?.any isWordChar = false ∨
    (span.text ++ behind).head?.any isWordChar = false
  stops : (before ++ span.text).getLast?.any isWordChar = false ∨
    behind.head?.any isWordChar = false

namespace Pattern

/-! ## What parts of a pattern lead to -/

/-- A pattern leads from the places of a text only to places of a kind. -/
def Ensures (P : Place → Prop) (pattern : Pattern) : Prop :=
  ∀ front rest groups out, out ∈ pattern.runs (Place.between front rest, groups) → P out.1

theorem Ensures.append {P : Place → Prop} {b : Pattern} (h : Ensures P b) (a : Pattern) :
    Ensures P (a ++ b) := by
  intro front rest groups out hout
  obtain ⟨⟨mid, midGroups⟩, hmid, hrest⟩ := mem_runs_append.1 hout
  obtain ⟨taken, back, -, hplace, -⟩ := between_of_mem_runs (over_true a) hmid
  obtain rfl : mid = Place.between (front ++ taken) back := hplace
  exact h _ _ _ _ hrest

theorem ensures_wordEdge : Ensures Place.BetweenWords wordEdge := by
  intro front rest groups out hout
  obtain ⟨hedge, rfl⟩ := mem_runs_wordEdge.1 hout
  exact Place.betweenWords_of_atWordEdge hedge

theorem ensures_blanks1 : Ensures Place.BetweenWords blanks1 := by
  intro front rest groups out hout
  obtain ⟨gap, back, rfl, hne, hgap, hplace⟩ := between_of_mem_blanks1 hout
  rw [hplace, Place.betweenWords_between]
  exact Or.inl (getLast?_append_of_ne_nil hgap hne front)

theorem ensures_indent : Ensures Place.BetweenWords (textStart ++ blanks) := by
  intro front rest groups out hout
  obtain ⟨mid, hmid, hblanks⟩ := mem_runs_append.1 hout
  obtain ⟨hstart, rfl⟩ := mem_runs_textStart.1 hmid
  obtain rfl : front = [] := List.length_eq_zero_iff.1 hstart
  have hover : blanks.Over (isBlank · = true) := fun _ hc => hc
  obtain ⟨gap, back, rfl, hplace, hgap⟩ := between_of_mem_runs hover hblanks
  rw [hplace, Place.betweenWords_between]
  exact Or.inl (getLast?_of_blank hgap)

/-! ## What parts of a pattern ask for -/

/-- No character of a word is next. -/
def NoWordAhead (place : Place) : Prop := place.rest.head?.any isWordChar = false

theorem Requires.betweenWords {pattern : Pattern} (h : Requires NoWordAhead pattern) :
    Requires Place.BetweenWords pattern :=
  fun here out hout => Or.inr (h here out hout)

theorem requires_wordEdge : Requires Place.BetweenWords wordEdge := by
  intro here out hout
  exact Place.betweenWords_of_atWordEdge (mem_runs_wordEdge.1 hout).1

theorem requires_one {p : Char → Bool} (hp : ∀ c, p c = true → isWordChar c = false) :
    Requires NoWordAhead (one p) := by
  intro here out hout
  obtain ⟨c, hrest, hc⟩ := rest_of_mem_one hout
  rw [NoWordAhead, hrest]
  exact hp c hc

theorem requires_char {c : Char} (hc : isWordChar c = false) : Requires NoWordAhead (char c) := by
  refine requires_one (fun d hd => ?_)
  rwa [beq_iff_eq.1 hd]

theorem Requires.behind {P : Char → Prop} {a b : Pattern} (hb : Requires NoWordAhead b)
    (ha : a.Over P) (hP : ∀ c, P c → isWordChar c = false) : Requires NoWordAhead (a ++ b) := by
  intro here out hout
  obtain ⟨mid, hmid, hrest⟩ := mem_runs_append.1 hout
  obtain ⟨taken, htakes, htaken⟩ := takes_of_mem_runs ha hmid
  rw [NoWordAhead, htakes.rest]
  cases taken with
  | nil => exact hb mid out hrest
  | cons c taken => exact hP c (htaken c List.mem_cons_self)

/-! ## Groups -/

/-- A pattern has one group, with something in front and something behind that keep it between
words. -/
structure CutsOut (pattern lead inner tail : Pattern) : Prop where
  runs_eq : ∀ here, pattern.runs here = (lead ++ (group 1 inner ++ tail)).runs here
  groupFree : lead.groupFree = true ∧ inner.groupFree = true ∧ tail.groupFree = true
  starts : Ensures Place.BetweenWords lead
  stops : Requires Place.BetweenWords tail

section Groups

variable {pattern lead inner tail : Pattern} {text : List Char} {m : Match}

/-- **The group of a match cuts no word**, and it is a run of its part of the pattern. -/
theorem CutsOut.span_of_matchAt? (h : CutsOut pattern lead inner tail) {front back : List Char}
    (hm : pattern.matchAt? (Place.between front back) = some m) :
    ∃ span before behind, m.group? 1 = some span ∧ span.CutOut (front ++ back) before behind ∧
      (span.stop, []) ∈ inner.runs (span.start, []) := by
  obtain ⟨hlead, hinner, htail⟩ := h.groupFree
  obtain ⟨start, stop, groups, hstart, hbody, hrest, hgroup⟩ :=
    parts_of_matchAt? h.runs_eq hlead hinner htail hm
  have hstarts : start.BetweenWords := h.starts front back [] _ hstart
  have hstops : stop.BetweenWords := h.stops _ _ hrest
  obtain ⟨gap, rest, rfl, hstartPlace, -⟩ := between_of_mem_runs (over_true lead) hstart
  obtain rfl : start = Place.between (front ++ gap) rest := hstartPlace
  obtain ⟨taken, behind, rfl, hstopPlace, -⟩ := between_of_mem_runs (over_true inner) hbody
  obtain rfl : stop = Place.between (front ++ gap ++ taken) behind := hstopPlace
  have htext := Span.text_between (front ++ gap) taken behind
  refine ⟨_, front ++ gap, behind, hgroup, ⟨?_, rfl, ?_, ?_⟩, hbody⟩
  · rw [htext, List.append_assoc]
  · rw [htext]
    exact Place.betweenWords_between.1 hstarts
  · rw [htext]
    exact Place.betweenWords_between.1 hstops

theorem CutsOut.span_of_mem_findAll (h : CutsOut pattern lead inner tail)
    (hm : m ∈ pattern.findAll text) :
    ∃ span before behind, m.group? 1 = some span ∧ span.CutOut text before behind ∧
      (span.stop, []) ∈ inner.runs (span.start, []) := by
  obtain ⟨front, back, rfl, -, hmatch⟩ := matchAt?_of_mem_findAll hm
  exact h.span_of_matchAt? hmatch

theorem CutsOut.span_of_find? (h : CutsOut pattern lead inner tail) (hanchored : Anchored pattern)
    (hm : pattern.find? text = some m) :
    ∃ span before behind, m.group? 1 = some span ∧ span.CutOut text before behind ∧
      (span.stop, []) ∈ inner.runs (span.start, []) := by
  rw [hanchored.find?_eq] at hm
  have hmatch : pattern.matchAt? (Place.between [] text) = some m := hm
  exact h.span_of_matchAt? hmatch

end Groups

end Pattern

end CodeSurvey
