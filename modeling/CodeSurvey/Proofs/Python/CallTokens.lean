/-
# The call tokens of a line

A call token is a name with an opening parenthesis behind it, blanks between them or none
(`CallAt`).  The scan finds every call token of a masked line, each once, from left to right
(`isCalling_callTokens`).  It does not ask whether the name is a keyword.

The match of a call token is its name, the blanks and the parenthesis, and no other name begins in
there.  That is what makes the search complete: it goes on behind each match, and could otherwise
pass over a token.  And there is one way through the pattern, as a name ends where its word does, so
the match at a call token is known down to its group (`callMatch`).
-/
import CodeSurvey.Proofs.Python.TargetLists

namespace CodeSurvey.Python

open Text Pattern

/-- A name stands in a text with an opening parenthesis behind it. -/
structure CallAt (text front name : List Char) : Prop where
  isName : IsName name
  begins : front.getLast?.any isWordChar = false
  opens : ∃ gap rest, text = front ++ (name ++ (gap ++ '(' :: rest)) ∧ ∀ c ∈ gap, isBlank c = true

theorem CallAt.nameAt {text front name : List Char} (h : CallAt text front name) :
    NameAt text front name := by
  obtain ⟨gap, rest, htext, hgap⟩ := h.opens
  exact ⟨h.isName, h.begins, _, htext, head?_append_of_blank hgap rfl⟩

/-! ## Finding call tokens -/

def callMatch (front name gap rest : List Char) : Match :=
  ⟨⟨.between front (name ++ (gap ++ '(' :: rest)), .between (front ++ name ++ gap ++ ['(']) rest⟩,
    [(1, ⟨.between front (name ++ (gap ++ '(' :: rest)),
      .between (front ++ name) (gap ++ '(' :: rest)⟩)]⟩

theorem start_callMatch (front name gap rest : List Char) :
    (callMatch front name gap rest).start = front.length := rfl

theorem groupText_callMatch (front name gap rest : List Char) :
    (callMatch front name gap rest).groupText 1 = name :=
  Span.text_between front name (gap ++ '(' :: rest)

theorem matchAt?_of_callAt {front name gap rest : List Char} (hname : IsName name)
    (hfront : front.getLast?.any isWordChar = false) (hgap : ∀ c ∈ gap, isBlank c = true) :
    callPattern.matchAt? (Place.between front (name ++ (gap ++ '(' :: rest))) =
      some (callMatch front name gap rest) := by
  have hback : (gap ++ '(' :: rest).head?.any isWordChar = false := head?_append_of_blank hgap rfl
  have hedge : (Place.between front (name ++ (gap ++ '(' :: rest))).atWordEdge = true := by
    obtain ⟨first, others, rfl, hfirst, -⟩ := hname
    rw [atWordEdge_between, hfront, List.cons_append, List.head?_cons, Option.any_some,
      isWordChar_of_isNameStart hfirst]
    rfl
  have hfirst : First callPattern (Place.between front (name ++ (gap ++ '(' :: rest)), [])
      ((callMatch front name gap rest).span.stop, (callMatch front name gap rest).groups) :=
    .append (.append (.append (.wordEdge hedge) (.group 1 (first_identifier_between hname hback)))
      (first_many hgap rfl _ _)) (first_char '(' _ rest _)
  exact hfirst.matchAt?_eq

theorem matchAt?_callPattern_iff {front back : List Char} {m : Match} :
    callPattern.matchAt? (Place.between front back) = some m ↔
      ∃ name gap rest, back = name ++ (gap ++ '(' :: rest) ∧ IsName name ∧
        front.getLast?.any isWordChar = false ∧ (∀ c ∈ gap, isBlank c = true) ∧
          m = callMatch front name gap rest := by
  constructor
  · intro h
    obtain ⟨out, hhead, -⟩ := Option.map_eq_some_iff.1 h
    obtain ⟨third, hthird, hparen⟩ := mem_runs_append.1 (List.mem_of_head? hhead)
    obtain ⟨second, hsecond, hblanks⟩ := mem_runs_append.1 hthird
    obtain ⟨first, hfirst, hgroup⟩ := mem_runs_append.1 hsecond
    obtain ⟨hedge, rfl⟩ := mem_runs_wordEdge.1 hfirst
    obtain ⟨inner, hidentifier, rfl⟩ := mem_runs_group.1 hgroup
    obtain ⟨name, hname, hnameTakes⟩ := name_of_mem_identifier hidentifier
    obtain ⟨gap, hgapTakes, hgap, -⟩ := takes_of_mem_many hblanks
    obtain ⟨paren, hparenTakes, hparen, -⟩ := takes_of_mem_one hparen
    obtain rfl : paren = '(' := beq_iff_eq.1 hparen
    have hback : back = name ++ (gap ++ '(' :: out.1.rest) := by
      have htakes : back = (name ++ gap ++ ['(']) ++ out.1.rest :=
        ((hnameTakes.trans hgapTakes).trans hparenTakes).rest
      simpa only [List.append_assoc, List.singleton_append] using htakes
    have hfront : front.getLast?.any isWordChar = false := by
      obtain ⟨first, others, rfl, hfirst, -⟩ := id hname
      rw [hback, atWordEdge_between, List.cons_append, List.head?_cons, Option.any_some,
        isWordChar_of_isNameStart hfirst] at hedge
      simpa using hedge
    refine ⟨name, gap, out.1.rest, hback, hname, hfront, hgap, ?_⟩
    rw [hback, matchAt?_of_callAt hname hfront hgap] at h
    exact (Option.some.inj h).symm
  · rintro ⟨name, gap, rest, rfl, hname, hfront, hgap, rfl⟩
    exact matchAt?_of_callAt hname hfront hgap

theorem CallAt.lt_of_lt {front name gap rest front' name' : List Char}
    (h : NameAt (front ++ (name ++ (gap ++ '(' :: rest))) front name)
    (hgap : ∀ c ∈ gap, isBlank c = true)
    (h' : NameAt (front ++ (name ++ (gap ++ '(' :: rest))) front' name')
    (hlt : front.length < front'.length) :
    (front ++ name ++ gap).length < front'.length := by
  have hapart := h.apart h' hlt
  rw [← List.append_assoc] at h'
  have hle := h'.not_lt_of_blank hgap (by rw [List.length_append]; omega)
  rw [← List.length_append] at hle
  refine Nat.lt_of_le_of_ne hle (fun heq => ?_)
  -- no name begins with the parenthesis
  obtain ⟨c, behind, hsplit, hc⟩ := h'.head
  rw [← List.append_assoc] at hsplit
  obtain ⟨rfl, -⟩ := List.cons.inj (List.append_inj hsplit heq).2
  cases hc

theorem apart_callPattern : callPattern.Apart := by
  intro front more back m hm hmore hstop
  obtain ⟨name, gap, rest, hsplit, hname, hbegins, hgap, rfl⟩ := matchAt?_callPattern_iff.1 hm
  rw [← Option.not_isSome_iff_eq_none]
  intro hsome
  obtain ⟨other, hother⟩ := Option.isSome_iff_exists.1 hsome
  obtain ⟨name', gap', rest', rfl, hname', hbegins', hgap', -⟩ :=
    matchAt?_callPattern_iff.1 hother
  have hthis : NameAt (front ++ (name ++ (gap ++ '(' :: rest))) front name :=
    CallAt.nameAt ⟨hname, hbegins, gap, rest, rfl, hgap⟩
  have hlater : NameAt (front ++ (name ++ (gap ++ '(' :: rest))) (front ++ more) name' := by
    refine CallAt.nameAt ⟨hname', hbegins', gap', rest', ?_, hgap'⟩
    rw [← hsplit, List.append_assoc]
  have hlt := CallAt.lt_of_lt hthis hgap hlater (by
    rw [List.length_append]
    exact Nat.lt_add_of_pos_right (List.length_pos_iff.2 hmore))
  have hstop' : front.length + more.length < (front ++ name ++ gap ++ ['(']).length := hstop
  rw [List.length_append, List.length_singleton, ← List.length_append] at hstop'
  omega

/-- **The scan finds every call token where it stands**, and nothing else. -/
theorem mem_findAll_callPattern {text : List Char} {m : Match} :
    m ∈ callPattern.findAll text ↔
      ∃ front name gap rest, text = front ++ (name ++ (gap ++ '(' :: rest)) ∧ IsName name ∧
        front.getLast?.any isWordChar = false ∧ (∀ c ∈ gap, isBlank c = true) ∧
          m = callMatch front name gap rest := by
  rw [mem_findAll_iff apart_callPattern]
  constructor
  · rintro ⟨front, back, rfl, -, hm⟩
    obtain ⟨name, gap, rest, rfl, hname, hbegins, hgap, rfl⟩ := matchAt?_callPattern_iff.1 hm
    exact ⟨front, name, gap, rest, rfl, hname, hbegins, hgap, rfl⟩
  · rintro ⟨front, name, gap, rest, rfl, hname, hbegins, hgap, rfl⟩
    refine ⟨front, _, rfl, ?_, matchAt?_of_callAt hname hbegins hgap⟩
    exact fun hnil => hname.ne_nil (List.append_eq_nil_iff.1 hnil).1

theorem occurs_callPattern_iff {text : List Char} :
    callPattern.occurs text = true ↔ ∃ front name, CallAt text front name := by
  rw [occurs_iff]
  constructor
  · rintro ⟨front, back, rfl, hsome⟩
    obtain ⟨m, hm⟩ := Option.isSome_iff_exists.1 hsome
    obtain ⟨name, gap, rest, rfl, hname, hbegins, hgap, -⟩ := matchAt?_callPattern_iff.1 hm
    exact ⟨front, name, hname, hbegins, gap, rest, rfl, hgap⟩
  · rintro ⟨front, name, hname, hbegins, gap, rest, rfl, hgap⟩
    refine ⟨front, _, rfl, ?_⟩
    rw [matchAt?_of_callAt hname hbegins hgap]
    rfl

/-! ## The call tokens of a line -/

/-- What is called on a line, as places: the call tokens from left to right. -/
def IsCalling (code : List Char) (calls : List String) : Prop :=
  ∃ places : List (List Char × List Char),
    places.Pairwise (fun p q => p.1.length < q.1.length) ∧
      (∀ front name, (front, name) ∈ places ↔ CallAt code front name) ∧
        calls = places.map (fun p => String.ofList p.2)

/-- **The call tokens of a masked line.** -/
theorem isCalling_callTokens (code : List Char) : IsCalling code (callTokens code) := by
  refine exists_places_of_found code (pairwise_findAll callPattern code) ?_ ?_
  · intro m hm
    obtain ⟨front, name, gap, rest, hcode, hname, hbegins, hgap, rfl⟩ :=
      mem_findAll_callPattern.1 hm
    rw [start_callMatch, groupText_callMatch, hcode, List.take_left, List.length_append]
    exact ⟨Nat.le_add_right _ _, hname, hbegins, gap, rest, rfl, hgap⟩
  · rintro front name ⟨hname, hbegins, gap, rest, hcode, hgap⟩
    refine ⟨callMatch front name gap rest, ?_, ?_, groupText_callMatch ..⟩
    · exact mem_findAll_callPattern.2 ⟨front, name, gap, rest, hcode, hname, hbegins, hgap, rfl⟩
    · rw [start_callMatch, hcode, List.take_left]

theorem mem_callTokens_iff {code : List Char} {word : String} :
    word ∈ callTokens code ↔ ∃ front name, CallAt code front name ∧ word = String.ofList name := by
  obtain ⟨places, -, hplaces, hcalls⟩ := isCalling_callTokens code
  exact mem_of_places hplaces hcalls

end CodeSurvey.Python
