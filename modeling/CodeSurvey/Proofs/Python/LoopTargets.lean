/-
# Targets of loops

Between `for` and `in` the scan reads a list that begins with a name and has nothing but names,
commas, blanks and parentheses (`IsLoopList`).  The search comes to no other `for`, and the list
ends at the first `in`, since no keyword stands in it.  A list that begins with a bracket or a star
is passed over whole.
-/
import CodeSurvey.Proofs.Python.TargetLists
import CodeSurvey.Proofs.Text.Pieces

namespace CodeSurvey.Python

open Text Pattern

/-! ## Loop headers -/

/-- What stands in front of `for`: blanks, or `async` with blanks around it. -/
inductive IsLoopLead : List Char → Prop
  | plain {indent : List Char} : (∀ c ∈ indent, isBlank c = true) → IsLoopLead indent
  | async {indent gap : List Char} : (∀ c ∈ indent, isBlank c = true) → gap ≠ [] →
      (∀ c ∈ gap, isBlank c = true) → IsLoopLead (indent ++ ("async".toList ++ gap))

/-- The parts of a line that begins a loop. -/
structure LoopHeader where
  lead : List Char
  targets : List Char
  rest : List Char
  isLoopLead : IsLoopLead lead
  isTargetList : IsTargetList targets
  targets_ne_nil : targets ≠ []
  targets_head : targets.head?.any isWordChar = false
  targets_last : targets.getLast?.any isWordChar = false
  rest_head : rest.head?.any isWordChar = false

/-- A list that begins with a name, of names, blanks, commas and parentheses. -/
structure IsLoopList (text : List Char) : Prop where
  begins : (text.dropWhile isBlank).head?.any isNameStart = true
  chars : ∀ c ∈ text, isTargetChar c = true

theorem IsLoopLead.getLast? {lead : List Char} (h : IsLoopLead lead) :
    lead.getLast?.any isWordChar = false := by
  cases h with
  | plain hindent => exact getLast?_of_blank hindent
  | async _ hne hgap =>
      rw [← List.append_assoc]
      exact getLast?_append_of_ne_nil hgap hne _

/-- What stands in front of `for` has none of the other characters that matter. -/
theorem IsLoopLead.not_mem {lead : List Char} (h : IsLoopLead lead) {c : Char}
    (hblank : isBlank c = false) (hasync : c ∉ "async".toList) : c ∉ lead := by
  have hfree : ∀ gap : List Char, (∀ d ∈ gap, isBlank d = true) → c ∉ gap := by
    intro gap hgap hmem
    rw [hgap c hmem] at hblank
    cases hblank
  cases h with
  | plain hindent => exact hfree _ hindent
  | async hindent _ hgap =>
      intro hmem
      rcases List.mem_append.1 hmem with hmem | hmem
      · exact hfree _ hindent hmem
      · exact (List.mem_append.1 hmem).elim hasync (hfree _ hgap)

theorem nameAt_async {indent gap : List Char} (hindent : ∀ c ∈ indent, isBlank c = true)
    (hgap : ∀ c ∈ gap, isBlank c = true) (hne : gap ≠ []) (rest : List Char) :
    NameAt (indent ++ ("async".toList ++ (gap ++ rest))) indent "async".toList :=
  ⟨isName_of_all rfl rfl rfl, getLast?_of_blank hindent, gap ++ rest, rfl,
    head?_append_of_ne_nil hgap hne rest⟩

theorem IsLoopLead.name_eq {lead rest front name : List Char} (h : IsLoopLead lead)
    (hname : NameAt (lead ++ rest) front name) (hlt : front.length < lead.length) :
    name = "async".toList := by
  cases h with
  | plain hindent =>
      have hle := hname.length_le_of_blank hindent
      omega
  | @async indent gap hindent hne hgap =>
      rw [List.append_assoc, List.append_assoc] at hname
      have hasync := nameAt_async hindent hgap hne rest
      rcases (hname.length_le_of_blank hindent).eq_or_lt with heq | hbehind
      · exact (hname.eq_of_length hasync heq.symm).2
      · have hapart := hasync.apart hname hbehind
        rw [← List.append_assoc] at hname
        have hle := hname.not_lt_of_blank hgap (by rw [List.length_append]; omega)
        simp only [List.length_append] at hle hlt
        omega

/-! ## The pattern of loops -/

theorem requires_forPattern :
    Requires (fun place => place.rest.head?.any (· == 'f') = true) forPattern := by
  intro here out hout
  rw [runs_forPattern] at hout
  obtain ⟨mid, hmid, -⟩ := mem_runs_append.1 hout
  obtain ⟨start, hstart, hrest⟩ := mem_runs_append.1 hmid
  obtain ⟨-, rfl⟩ := mem_runs_wordEdge.1 hstart
  obtain ⟨next, hnext, -⟩ := mem_runs_append.1 hrest
  rw [rest_of_mem_literal hnext]
  rfl

theorem first_in {margin rest : List Char} (hmargin : ∀ c ∈ margin, isBlank c = true)
    (hne : margin ≠ []) (hrest : rest.head?.any isWordChar = false) (front : List Char)
    (groups : Groups) :
    First (blanks1 ++ (literal "in" ++ wordEdge))
      (Place.between front (margin ++ ("in".toList ++ rest)), groups)
      (Place.between (front ++ margin ++ "in".toList) rest, groups) := by
  have hword : IsName "in".toList := isName_of_all rfl rfl rfl
  have hedge : (Place.between (front ++ margin ++ "in".toList) rest).atWordEdge = true := by
    rw [atWordEdge_between, hrest, any_getLast?_append_of_word hword.ne_nil hword.word]
    rfl
  exact .append (first_some1 hmargin hne rfl front groups)
    (.append (first_literal "in" _ rest groups) (.wordEdge hedge))

/-- What is taken for the targets of a loop begins with a name, of names, blanks, commas and
parentheses. -/
theorem isLoopList_of_isLoop {code front targets : List Char} (hloop : IsLoop code front targets) :
    IsLoopList targets := by
  obtain ⟨gap, body, margin, rfl, hgap, hmargin, -, hbegins, hchars⟩ := hloop.targets_eq
  refine ⟨?_, ?_⟩
  · cases body with
    | nil => cases hbegins
    | cons c others =>
        have hc : isNameStart c = true := hbegins
        have hfirst := not_isBlank_of_isWordChar (isWordChar_of_isNameStart hc)
        rw [List.dropWhile_append_of_pos hgap, List.cons_append,
          List.dropWhile_cons_of_neg (Bool.eq_false_iff.1 hfirst)]
        exact hc
  · exact List.forall_mem_append.2 ⟨fun c hc => isTargetChar_of_isBlank (hgap c hc),
      List.forall_mem_append.2 ⟨hchars, fun c hc => isTargetChar_of_isBlank (hmargin c hc)⟩⟩

theorem head?_of_append_blank {body margin : List Char} (hmargin : ∀ c ∈ margin, isBlank c = true)
    (h : (body ++ margin).head?.any isNameStart = true) : body.head?.any isNameStart = true := by
  cases body with
  | cons c others => exact h
  | nil =>
      cases margin with
      | nil => cases h
      | cons c others =>
          have hc : isNameStart c = true := h
          rw [not_isNameStart_of_isBlank (hmargin c List.mem_cons_self)] at hc
          cases hc

namespace LoopHeader

variable (h : LoopHeader)

def before : List Char := h.lead ++ "for".toList

def text : List Char := h.before ++ (h.targets ++ ("in".toList ++ h.rest))

theorem length_before : h.before.length = h.lead.length + 3 :=
  List.length_append

theorem nameAt_for : NameAt h.text h.lead "for".toList := by
  refine ⟨isName_of_all rfl rfl rfl, h.isLoopLead.getLast?, _, List.append_assoc .., ?_⟩
  obtain ⟨c, others, htargets⟩ := List.exists_cons_of_ne_nil h.targets_ne_nil
  have hhead := h.targets_head
  rw [htargets] at hhead ⊢
  exact hhead

theorem nameAt_in : NameAt h.text (h.before ++ h.targets) "in".toList := by
  refine ⟨isName_of_all rfl rfl rfl, ?_, h.rest, (List.append_assoc ..).symm, h.rest_head⟩
  rw [List.getLast?_append, List.getLast?_eq_some_getLast h.targets_ne_nil, Option.some_or,
    ← List.getLast?_eq_some_getLast]
  exact h.targets_last

theorem nameAt_text {front name : List Char} (hname : NameAt h.targets front name) :
    NameAt h.text (h.before ++ front) name :=
  hname.outer (Or.inr h.targets_head) (Or.inr h.targets_last)

theorem keyword_eq {word : String} (hword : isKeyword word = true) {front : List Char}
    (hname : NameAt h.text front word.toList)
    (hlt : front.length < h.before.length + h.targets.length) :
    word.toList = "async".toList ∨ front = h.lead ∧ word.toList = "for".toList := by
  rcases Nat.lt_trichotomy front.length h.lead.length with hlead | hfor | hbehind
  · have hsplit : NameAt (h.lead ++ ("for".toList ++ (h.targets ++ ("in".toList ++ h.rest)))) front
        word.toList := by
      rw [← List.append_assoc]
      exact hname
    exact Or.inl (h.isLoopLead.name_eq hsplit hlead)
  · exact Or.inr (hname.eq_of_length h.nameAt_for hfor)
  · have hapart := h.nameAt_for.apart hname hbehind
    have hbefore : h.before.length ≤ front.length := by
      rw [length_before]
      exact Nat.le_of_lt hapart
    have hle := h.isTargetList.not_within (Or.inr h.targets_last) hword hname hbefore
    omega

theorem length_le_of_keyword {word : String} (hword : isKeyword word = true)
    (hasync : word.toList ≠ "async".toList) (hfor : word.toList ≠ "for".toList)
    {front : List Char} (hname : NameAt h.text front word.toList) :
    h.before.length + h.targets.length ≤ front.length := by
  by_contra hlt
  rcases h.keyword_eq hword hname (by omega) with heq | ⟨-, heq⟩
  · exact hasync heq
  · exact hfor heq

/-! ### Nothing in front of an equals sign -/

theorem not_mem_before {c : Char} (hblank : isBlank c = false) (hasync : c ∉ "async".toList)
    (hfor : c ∉ "for".toList) : c ∉ h.before := by
  intro hmem
  exact (List.mem_append.1 hmem).elim (h.isLoopLead.not_mem hblank hasync) hfor

theorem head?_dropWhile_targets {front name : List Char} (hname : NameAt h.targets front name)
    (rest : List Char) : ((h.targets ++ rest).dropWhile isBlank).head? =
      (h.targets.dropWhile isBlank).head? := by
  obtain ⟨c, others, htargets, hc⟩ := hname.head
  have hne : h.targets.dropWhile isBlank ≠ [] := by
    intro hnil
    have hblank := List.dropWhile_eq_nil_iff.1 hnil c (by
      rw [htargets]
      exact List.mem_append_right front List.mem_cons_self)
    rw [not_isNameStart_of_isBlank hblank] at hc
    cases hc
  obtain ⟨d, more, hdrop⟩ := List.exists_cons_of_ne_nil hne
  rw [List.dropWhile_append, hdrop]
  rfl

/-- Behind the first word of the line no comma stands. -/
theorem not_tuple {front name : List Char} (hname : NameAt h.targets front name) :
    tupleTargets? h.text = none := by
  cases hspan : tupleTargets? h.text with
  | none => rfl
  | some span =>
      obtain ⟨list, value, hlist, hcode⟩ := isBareList_of_tupleTargets? hspan
      have htext : h.text = h.lead ++ ("for".toList ++ (h.targets ++ ("in".toList ++ h.rest))) :=
        List.append_assoc ..
      have hfor := h.nameAt_for
      have hlead := h.isLoopLead
      rw [htext] at hcode hfor
      generalize h.lead = lead at hcode hfor hlead
      cases hlead with
      | plain hindent =>
          have hcomma := head?_of_isBareList hlist hindent hcode.symm hfor
          rw [h.head?_dropWhile_targets hname] at hcomma
          exact absurd hcomma h.isTargetList.no_comma
      | async hindent hne hgap =>
          rw [List.append_assoc, List.append_assoc] at hcode
          have hcomma := head?_of_isBareList hlist hindent hcode.symm
            (nameAt_async hindent hgap hne _)
          rw [List.dropWhile_append_of_pos hgap] at hcomma
          cases hcomma

theorem not_written {depth : Nat} {front name : List Char} (hname : NameAt h.targets front name) :
    ¬Written h.text depth (h.before ++ front).length := by
  intro hwritten
  cases hwritten with
  | @annotated indent back hcode hindent _ hplace =>
      -- the first word stands in front of the list
      have hfor := h.nameAt_for
      rw [hcode] at hfor
      have hle := hfor.length_le_of_blank hindent
      rw [List.length_append, h.length_before] at hplace
      omega
  | tuple _ hspan =>
      rw [h.not_tuple hname] at hspan
      cases hspan
  | assigned hcode honeWord hplace =>
      have hat := h.nameAt_text hname
      obtain ⟨rest, htext, -⟩ := hat.ends
      obtain ⟨rfl, -⟩ := List.append_inj (htext.symm.trans hcode) hplace
      refine hat.not_oneWord h.nameAt_in ?_ ?_ hcode honeWord
      · rw [List.length_append, List.length_append]
        exact Nat.add_lt_add_left hname.length_lt _
      · intro hmem
        rcases List.mem_append.1 hmem with hmem | hmem
        · exact h.not_mem_before (by decide) (by decide) (by decide) hmem
        · exact h.isTargetList.not_mem rfl hmem

/-! ### Lists that are not read -/

theorem exists_in_rest {c : Char} {more : List Char}
    (hin : NameAt h.text (h.before ++ (h.targets ++ c :: more)) "in".toList) :
    ∃ before, NameAt h.rest before "in".toList := by
  have htext : h.text = h.before ++ h.targets ++ "in".toList ++ (h.rest ++ []) := by
    rw [text]
    simp only [List.append_assoc, List.append_nil]
  have hapart := h.nameAt_in.apart hin (by simp)
  rw [← List.length_append] at hapart
  rw [htext] at hin
  have hlength := hin.length_lt
  rw [List.append_nil] at hlength
  obtain ⟨before, -, hbehind⟩ := hin.within (Or.inl rfl) (Nat.le_of_lt hapart) (by
    rw [← List.length_append]
    exact hlength)
  exact ⟨before, hbehind⟩

/-- Such a list begins where the targets begin, and goes on at least to their end: to their `in`, or
to another one in the rest of the line. -/
theorem isLoopList_of_loop {targets front name : List Char} (hname : NameAt h.targets front name)
    (hloop : IsLoop h.text h.lead targets) :
    IsLoopList h.targets ∧ (h.targets.getLast?.any isBlank = true ∨
      ∃ before, NameAt h.rest before "in".toList) := by
  have hends : NameAt h.text (h.before ++ targets) "in".toList := hloop.ends
  have hle : h.targets.length ≤ targets.length := by
    have hbehind := h.length_le_of_keyword rfl (by decide) (by decide) hends
    rw [List.length_append] at hbehind
    omega
  obtain ⟨back, htext, -⟩ := hends.ends
  have hsplit : h.targets ++ ("in".toList ++ h.rest) = targets ++ ("in".toList ++ back) := by
    rw [text, List.append_assoc] at htext
    exact List.append_cancel_left htext
  obtain ⟨more, rfl⟩ : h.targets <+: targets :=
    List.prefix_of_prefix_length_le ⟨_, hsplit⟩ ⟨_, rfl⟩ hle
  have hlist := isLoopList_of_isLoop hloop
  refine ⟨⟨?_, fun c hc => hlist.chars c (List.mem_append_left more hc)⟩, ?_⟩
  · rw [← h.head?_dropWhile_targets hname more]
    exact hlist.begins
  · cases more with
    | nil =>
        obtain ⟨gap, body, margin, htargets, -, hmargin, hne, -⟩ := hloop.targets_eq
        rw [List.append_nil] at htargets
        rw [htargets, List.getLast?_append, List.getLast?_append,
          List.getLast?_eq_some_getLast hne, Option.some_or, Option.some_or]
        exact Or.inl (hmargin _ (List.getLast_mem hne))
    | cons c more =>
        exact Or.inr (h.exists_in_rest hends)

/-- What keeps a list from being read: it begins otherwise or has other characters, or no blank
stands in front of its `in` and no other `in` comes later. -/
def IsLost : Prop :=
  ¬IsLoopList h.targets ∨
    h.targets.getLast?.any isBlank = false ∧ ∀ before, ¬NameAt h.rest before "in".toList

/-- **Of a list that is not read, no name is.** -/
theorem noTargetAt_of_isLost (hlost : h.IsLost) (depth : Nat)
    {front name : List Char} (hname : NameAt h.targets front name) :
    NoTargetAt h.text depth (h.before ++ front).length := by
  have hinside := hname.length_lt
  intro a ha hstart
  cases origin_of_mem ha with
  | written hwritten =>
      rw [hstart] at hwritten
      exact h.not_written hname hwritten
  | @loop front' targets' hloop hlt =>
      rw [hstart, List.length_append] at hlt
      rcases h.keyword_eq rfl hloop.begins (by omega) with hword | ⟨rfl, -⟩
      · exact absurd hword (by decide)
      · obtain ⟨hlist, hend⟩ := h.isLoopList_of_loop hname hloop
        rcases hlost with hnot | ⟨hlast, hnone⟩
        · exact hnot hlist
        · rcases hend with hblank | ⟨before, hin⟩
          · rw [hlast] at hblank
            cases hblank
          · exact hnone before hin
  | word hkind hat hlt =>
      rw [hstart, List.length_append] at hlt
      rcases hkind with rfl | rfl
      · have hle := h.length_le_of_keyword rfl (by decide) (by decide) hat
        omega
      · have hle := h.length_le_of_keyword rfl (by decide) (by decide) hat
        omega

/-! ### Lists that are read -/

/-- The parts of a list that is read: blanks, a text that begins with a name, and blanks. -/
structure Parts (targets gap body margin : List Char) : Prop where
  targets_eq : targets = gap ++ (body ++ margin)
  gap_ne_nil : gap ≠ []
  gap_blank : ∀ c ∈ gap, isBlank c = true
  body_head : body.head?.any isNameStart = true
  body_last : body.getLast?.any isBlank = false
  body_chars : ∀ c ∈ body, isTargetChar c = true
  margin_ne_nil : margin ≠ []
  margin_blank : ∀ c ∈ margin, isBlank c = true

theorem exists_parts (hlist : IsLoopList h.targets)
    (hlast : h.targets.getLast?.any isBlank = true) :
    ∃ gap body margin, Parts h.targets gap body margin := by
  have hgap : ∀ c ∈ h.targets.takeWhile isBlank, isBlank c = true :=
    fun c hc => List.mem_takeWhile_imp hc
  have hbody := getLast?_trimEndOf isBlank (h.targets.dropWhile isBlank)
  obtain ⟨margin, hdrop, hmargin⟩ := trimEndOf_append isBlank (h.targets.dropWhile isBlank)
  have hsplit := List.takeWhile_append_dropWhile (p := isBlank) (l := h.targets)
  have hbegins := hlist.begins
  rw [hdrop] at hsplit hbegins
  generalize h.targets.takeWhile isBlank = gap at hgap hsplit
  generalize trimEndOf isBlank (h.targets.dropWhile isBlank) = body at hbody hsplit hbegins
  have hhead := head?_of_append_blank hmargin hbegins
  refine ⟨gap, body, margin, hsplit.symm, ?_, hgap, hhead, hbody, ?_, ?_, hmargin⟩
  · rintro rfl
    have hword := h.targets_head
    obtain ⟨c, others, rfl⟩ : ∃ c others, body = c :: others := by
      cases body with
      | nil => cases hhead
      | cons c others => exact ⟨c, others, rfl⟩
    rw [← hsplit] at hword
    have hc : isWordChar c = false := hword
    rw [isWordChar_of_isNameStart hhead] at hc
    cases hc
  · intro c hc
    refine hlist.chars c ?_
    rw [← hsplit]
    exact List.mem_append_right gap (List.mem_append_left margin hc)
  · rintro rfl
    rw [← hsplit, List.append_nil, List.getLast?_append] at hlast
    cases hlastBody : body.getLast? with
    | none =>
        rw [List.getLast?_eq_none_iff.1 hlastBody] at hhead
        cases hhead
    | some c =>
        rw [hlastBody] at hlast hbody
        rw [Option.some_or, hbody] at hlast
        cases hlast

variable {gap body margin : List Char} (hparts : Parts h.targets gap body margin)

def tail (margin : List Char) : List Char := margin ++ ("in".toList ++ h.rest)

/-- The names that the loop binds. -/
def bodySpan (gap body margin : List Char) : Span :=
  ⟨Place.between (h.before ++ gap) (body ++ h.tail margin),
    Place.between (h.before ++ gap ++ body) (h.tail margin)⟩

include hparts

theorem text_eq : h.text = h.lead ++ ("for".toList ++ (gap ++ (body ++ h.tail margin))) := by
  rw [text, before, tail, hparts.targets_eq]
  simp only [List.append_assoc]

theorem runs_in_eq_nil {less more : List Char} (hsplit : body = less ++ more) (hmore : more ≠ [])
    (groups : Groups) :
    (blanks1 ++ (literal "in" ++ wordEdge)).runs
      (Place.between (h.before ++ gap ++ less) (more ++ h.tail margin), groups) = [] := by
  refine List.eq_nil_iff_forall_not_mem.2 ?_
  intro out hout
  obtain ⟨blank, rest, hback, -, hblank, hin⟩ := in_of_mem_runs hout
  have htext : h.before ++ gap ++ less ++ (more ++ h.tail margin) = h.text := by
    rw [h.text_eq hparts, before, hsplit]
    simp only [List.append_assoc]
  rw [htext] at hin
  have hlength : h.targets.length = gap.length + (less.length + more.length + margin.length) := by
    rw [hparts.targets_eq, hsplit]
    simp only [List.length_append]
  have hbehind := h.length_le_of_keyword rfl (by decide) (by decide) hin
  simp only [List.length_append] at hbehind
  -- so the body would end in a blank
  obtain ⟨others, rfl⟩ : more <+: blank :=
    List.prefix_of_prefix_length_le ⟨_, hback⟩ ⟨_, rfl⟩ (by omega)
  have hlast := hparts.body_last
  rw [hsplit, List.getLast?_append, List.getLast?_eq_some_getLast hmore, Option.some_or,
    Option.any_some, hblank _ (List.mem_append_left others (List.getLast_mem hmore))] at hlast
  cases hlast

theorem first_forPattern :
    First forPattern (Place.between h.lead ("for".toList ++ (gap ++ (body ++ h.tail margin))), [])
      (Place.between (h.before ++ gap ++ body ++ margin ++ "in".toList) h.rest,
        [(1, h.bodySpan gap body margin)]) := by
  obtain ⟨c, inner, rfl⟩ : ∃ c inner, body = c :: inner := by
    cases hbody : body with
    | nil =>
        have hhead := hparts.body_head
        rw [hbody] at hhead
        cases hhead
    | cons c inner => exact ⟨c, inner, rfl⟩
  have hc : isNameStart c = true := hparts.body_head
  have hfirst : (c :: inner ++ h.tail margin).head?.any isBlank = false :=
    not_isBlank_of_isWordChar (isWordChar_of_isNameStart hc)
  have hedge : (Place.between h.lead
      ("for".toList ++ (gap ++ (c :: inner ++ h.tail margin)))).atWordEdge = true := by
    rw [atWordEdge_between, h.isLoopLead.getLast?]
    rfl
  have hbegin : First (wordEdge ++ (literal "for" ++ blanks1))
      (Place.between h.lead ("for".toList ++ (gap ++ (c :: inner ++ h.tail margin))), [])
      (Place.between (h.before ++ gap) (c :: inner ++ h.tail margin), []) :=
    .append (.wordEdge hedge) (.append (first_literal "for" h.lead _ [])
      (first_some1 hparts.gap_blank hparts.gap_ne_nil hfirst _ []))
  have hinner := (List.forall_mem_cons.1 hparts.body_chars).2
  have hend := first_in hparts.margin_blank hparts.margin_ne_nil h.rest_head
    (h.before ++ gap ++ c :: inner) [(1, h.bodySpan gap (c :: inner) margin)]
  have hbody := first_group_few_append hc hinner hend (by
    intro less more hsplit hmore groups
    have hbody : c :: inner = c :: less ++ more := by
      rw [hsplit]
      rfl
    exact h.runs_in_eq_nil hparts hbody hmore groups)
  show (forPattern.runs _).head? = _
  rw [runs_forPattern]
  exact First.append hbegin hbody

theorem findAll_forPattern :
    ∃ m more, forPattern.findAll h.text = m :: more ∧
      m.group? 1 = some (h.bodySpan gap body margin) := by
  have hmatch := (h.first_forPattern hparts).matchAt?_eq
  have hlead : ∀ c ∈ h.lead, (c == 'f') = false := by
    intro c hc
    refine beq_false_of_ne ?_
    rintro rfl
    exact h.isLoopLead.not_mem (by decide) (by decide) hc
  obtain ⟨more, hmore⟩ := findAllFrom_of_matchAt? (c := 'f') hmatch
  let found : Match := ⟨⟨Place.between h.lead ("for".toList ++ (gap ++ (body ++ h.tail margin))),
    Place.between (h.before ++ gap ++ body ++ margin ++ "in".toList) h.rest⟩,
    [(1, h.bodySpan gap body margin)]⟩
  refine ⟨found, more, ?_, rfl⟩
  rw [Pattern.findAll, h.text_eq hparts, findAllFrom_append requires_forPattern _ _ hlead,
    Nat.zero_add]
  exact hmore

omit hparts

/-- **A list of names, commas and parentheses that begins with a name is read**: all its names are
plain targets. -/
theorem allPlain_of_isLoopList (hlist : IsLoopList h.targets)
    (hlast : h.targets.getLast?.any isBlank = true) (depth : Nat) :
    AllPlain h.text depth h.before h.targets := by
  obtain ⟨gap, body, margin, hparts⟩ := h.exists_parts hlist hlast
  obtain ⟨m, more, hfind, hgroup⟩ := h.findAll_forPattern hparts
  intro front name hname
  have hkeyword := h.isTargetList.not_keyword front name hname
  have hparted : NameAt (gap ++ (body ++ margin)) front name := by
    rw [← hparts.targets_eq]
    exact hname
  obtain ⟨inner, rfl, hinner⟩ := hparted.between_blanks hparts.gap_blank hparts.margin_blank
  have hplace : (h.bodySpan gap body margin).start.offset + inner.length =
      (h.before ++ (gap ++ inner)).length := by
    show (h.before ++ gap).length + inner.length = _
    rw [← List.length_append, List.append_assoc]
  have hfree : ∀ a ∈ assigned h.text depth,
      a.start ≠ (h.bodySpan gap body margin).start.offset + inner.length := by
    intro a ha hstart
    have hwritten := written_of_mem ha
    rw [hstart, hplace] at hwritten
    exact h.not_written hname hwritten
  have htext : (h.bodySpan gap body margin).text = body := Span.text_between _ _ _
  rw [← htext] at hinner
  have hmem := mem_addNames_of_nameAt hinner hkeyword hfree
  rw [hplace, List.length_append] at hmem
  -- what the loop adds stays
  have hprefix := (prefix_foldl prefix_addGroupNames (addGroupNames (assigned h.text depth) m)
    more).trans ((prefix_foldl prefix_addGroupName _ (asPattern.findAll h.text)).trans
      (prefix_foldl prefix_addLambda _ (lambdaPattern.findAll h.text)))
  rw [assignments_eq, hfind, List.foldl_cons]
  refine hprefix.subset ?_
  rw [addGroupNames, hgroup]
  exact hmem

end LoopHeader

end CodeSurvey.Python
