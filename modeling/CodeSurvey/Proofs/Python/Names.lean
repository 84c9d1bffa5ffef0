/-
# The names of a line

A name is a word that begins like one and has no more of the word on either side.  The scan finds
every name of a masked line where it stands, from left to right (`mem_findAll_namePattern`).  It
mentions all of them, and it reads those that are no keywords, no attributes and not where a plain
target or a keyword argument is (`isReading_scanCode`).
-/
import CodeSurvey.Proofs.Pattern.Places
import CodeSurvey.Proofs.Text.Words
import CodeSurvey.Scan.PythonOutline

namespace CodeSurvey.Python

open Text Pattern

/-! ## Names in a text -/

/-- A word that begins with a letter or an underscore. -/
def IsName (word : List Char) : Prop :=
  ∃ first others, word = first :: others ∧ isNameStart first = true ∧
    ∀ c ∈ others, isWordChar c = true

/-- A name stands in a text behind a front of it, with nothing of a word on either side. -/
structure NameAt (text front name : List Char) : Prop where
  isName : IsName name
  begins : front.getLast?.any isWordChar = false
  ends : ∃ back, text = front ++ (name ++ back) ∧ back.head?.any isWordChar = false

theorem IsName.ne_nil {name : List Char} (h : IsName name) : name ≠ [] := by
  obtain ⟨first, others, rfl, -, -⟩ := h
  exact List.cons_ne_nil first others

theorem IsName.word {name : List Char} (h : IsName name) : ∀ c ∈ name, isWordChar c = true := by
  obtain ⟨first, others, rfl, hfirst, hothers⟩ := h
  exact List.forall_mem_cons.2 ⟨isWordChar_of_isNameStart hfirst, hothers⟩

theorem IsName.head?_append {name : List Char} (h : IsName name) (rest : List Char) :
    (name ++ rest).head?.any isBlank = false := by
  obtain ⟨first, others, rfl, hfirst, -⟩ := h
  exact not_isBlank_of_isWordChar (isWordChar_of_isNameStart hfirst)

theorem takeWhile_word {name back : List Char} (hname : ∀ c ∈ name, isWordChar c = true)
    (hback : back.head?.any isWordChar = false) :
    (name ++ back).takeWhile isWordChar = name := by
  rw [List.takeWhile_append_of_pos hname]
  cases back with
  | nil => exact List.append_nil name
  | cons c back =>
      have hc : isWordChar c = false := hback
      rw [List.takeWhile_cons_of_neg (Bool.eq_false_iff.1 hc), List.append_nil]

theorem NameAt.eq_of_length {text front front' name name' : List Char} (h : NameAt text front name)
    (h' : NameAt text front' name') (hlength : front.length = front'.length) :
    front = front' ∧ name = name' := by
  obtain ⟨back, htext, hback⟩ := h.ends
  obtain ⟨back', htext', hback'⟩ := h'.ends
  obtain ⟨hfront, hrest⟩ := List.append_inj (htext.symm.trans htext') hlength
  refine ⟨hfront, ?_⟩
  rw [← takeWhile_word h.isName.word hback, hrest, takeWhile_word h'.isName.word hback']

/-! ## Names in a stretch of a text -/

theorem NameAt.head {text front name : List Char} (h : NameAt text front name) :
    ∃ c rest, text = front ++ c :: rest ∧ isNameStart c = true := by
  obtain ⟨back, htext, -⟩ := h.ends
  obtain ⟨first, others, rfl, hfirst, -⟩ := h.isName
  exact ⟨first, others ++ back, htext, hfirst⟩

theorem NameAt.length_lt {text front name : List Char} (h : NameAt text front name) :
    front.length < text.length := by
  obtain ⟨c, rest, rfl, -⟩ := h.head
  rw [List.length_append, List.length_cons]
  omega

theorem NameAt.not_lt_of_blank {front rest text inner name : List Char}
    (h : NameAt (text ++ (inner ++ rest)) front name) (hinner : ∀ c ∈ inner, isBlank c = true)
    (hfront : text.length ≤ front.length) : text.length + inner.length ≤ front.length := by
  by_contra hlt
  obtain ⟨c, back, hsplit, hc⟩ := h.head
  have hat : (text ++ (inner ++ rest))[front.length]? = some c := by
    rw [hsplit, List.getElem?_append_right (Nat.le_refl _), Nat.sub_self]
    rfl
  rw [List.getElem?_append_right hfront, List.getElem?_append_left (by omega)] at hat
  rw [not_isNameStart_of_isBlank (hinner c (List.mem_of_getElem? hat))] at hc
  cases hc

theorem NameAt.length_le_of_blank {front gap rest name : List Char}
    (h : NameAt (gap ++ rest) front name) (hgap : ∀ c ∈ gap, isBlank c = true) :
    gap.length ≤ front.length := by
  have h' : NameAt ([] ++ (gap ++ rest)) front name := h
  have hle := h'.not_lt_of_blank hgap (Nat.zero_le _)
  rwa [List.length_nil, Nat.zero_add] at hle

theorem NameAt.apart {text front front' name name' : List Char} (h : NameAt text front name)
    (h' : NameAt text front' name') (hlt : front.length < front'.length) :
    front.length + name.length < front'.length := by
  obtain ⟨back, htext, -⟩ := h.ends
  obtain ⟨back', htext', -⟩ := h'.ends
  obtain ⟨more, rfl⟩ : front <+: front' :=
    List.prefix_of_prefix_length_le ⟨_, htext.symm⟩ ⟨_, htext'.symm⟩ (Nat.le_of_lt hlt)
  by_contra hle
  rw [List.length_append] at hlt hle
  have hmoreName : more <+: name := by
    have hsplit : name ++ back = more ++ (name' ++ back') := by
      rw [htext, List.append_assoc] at htext'
      exact List.append_cancel_left htext'
    exact List.prefix_of_prefix_length_le ⟨_, hsplit.symm⟩ ⟨back, rfl⟩ (by omega)
  have hmore : more ≠ [] := by
    rintro rfl
    simp at hlt
  have hbegins := h'.begins
  rw [List.getLast?_append, List.getLast?_eq_some_getLast hmore, Option.some_or] at hbegins
  have hword := h.isName.word _ (hmoreName.subset (List.getLast_mem hmore))
  rw [Option.any_some, hword] at hbegins
  cases hbegins

theorem isPrefix_of_edge {name back last rest : List Char}
    (hname : ∀ c ∈ name, isWordChar c = true) (hsplit : last ++ rest = name ++ back)
    (hlast : last ≠ [])
    (hedge : rest.head?.any isWordChar = false ∨ last.getLast?.any isWordChar = false) :
    name <+: last := by
  by_contra hlong
  obtain ⟨others, rfl⟩ : last <+: name := by
    refine List.prefix_of_prefix_length_le ⟨rest, hsplit⟩ ⟨back, rfl⟩ ?_
    by_contra hlt
    exact hlong (List.prefix_of_prefix_length_le ⟨back, hsplit.symm⟩ ⟨rest, rfl⟩ (by omega))
  rcases hedge with hedge | hedge
  · cases others with
    | nil => exact hlong ⟨[], by rw [List.append_nil, List.append_nil]⟩
    | cons c others =>
        rw [List.append_assoc] at hsplit
        rw [List.append_cancel_left hsplit] at hedge
        have hword := hname c (List.mem_append_right _ List.mem_cons_self)
        have hc : isWordChar c = false := hedge
        rw [hc] at hword
        cases hword
  · rw [List.getLast?_eq_some_getLast hlast, Option.any_some,
      hname _ (List.mem_append_left _ (List.getLast_mem hlast))] at hedge
    cases hedge

/-- A name that begins in a stretch of a text with edges stands in the stretch. -/
theorem NameAt.within {before inner rest front name : List Char}
    (h : NameAt (before ++ (inner ++ rest)) front name)
    (hedge : rest.head?.any isWordChar = false ∨ inner.getLast?.any isWordChar = false)
    (hbefore : before.length ≤ front.length)
    (hinner : front.length < before.length + inner.length) :
    ∃ more, front = before ++ more ∧ NameAt inner more name := by
  obtain ⟨back, htext, hback⟩ := h.ends
  obtain ⟨more, rfl⟩ : before <+: front :=
    List.prefix_of_prefix_length_le ⟨_, rfl⟩ ⟨_, htext.symm⟩ hbefore
  rw [List.length_append] at hinner
  have hsplit : inner ++ rest = more ++ (name ++ back) := by
    rw [List.append_assoc] at htext
    exact List.append_cancel_left htext
  obtain ⟨last, rfl⟩ : more <+: inner :=
    List.prefix_of_prefix_length_le ⟨_, hsplit.symm⟩ ⟨_, rfl⟩ (by omega)
  have hlast : last ++ rest = name ++ back := by
    rw [List.append_assoc] at hsplit
    exact List.append_cancel_left hsplit
  have hne : last ≠ [] := by
    rintro rfl
    simp at hinner
  rw [List.getLast?_append, List.getLast?_eq_some_getLast hne, Option.some_or,
    ← List.getLast?_eq_some_getLast hne] at hedge
  obtain ⟨behind, rfl⟩ := isPrefix_of_edge h.isName.word hlast hne hedge
  refine ⟨more, rfl, h.isName, ?_, behind, rfl, ?_⟩
  · have hbegins := h.begins
    rw [List.getLast?_append] at hbegins
    cases hmore : more.getLast? with
    | none => rfl
    | some c =>
        rw [hmore] at hbegins
        exact hbegins
  · rw [List.append_assoc] at hlast
    rw [← List.append_cancel_left hlast] at hback
    cases behind with
    | nil => rfl
    | cons c behind => exact hback

theorem NameAt.outer {before inner rest front name : List Char} (h : NameAt inner front name)
    (hbefore : before.getLast?.any isWordChar = false ∨ inner.head?.any isWordChar = false)
    (hrest : rest.head?.any isWordChar = false ∨ inner.getLast?.any isWordChar = false) :
    NameAt (before ++ (inner ++ rest)) (before ++ front) name := by
  obtain ⟨back, rfl, hback⟩ := h.ends
  refine ⟨h.isName, ?_, back ++ rest, by simp only [List.append_assoc], ?_⟩
  · have hbegins := h.begins
    rw [List.getLast?_append]
    cases hfront : front.getLast? with
    | some c =>
        rw [hfront] at hbegins
        exact hbegins
    | none =>
        obtain rfl := List.getLast?_eq_none_iff.1 hfront
        rcases hbefore with hbefore | hbefore
        · exact hbefore
        · obtain ⟨first, others, rfl, hfirst, -⟩ := h.isName
          have hword : isWordChar first = false := hbefore
          rw [isWordChar_of_isNameStart hfirst] at hword
          cases hword
  · cases back with
    | nil =>
        rcases hrest with hrest | hrest
        · exact hrest
        · rw [List.append_nil, any_getLast?_append_of_word h.isName.ne_nil h.isName.word] at hrest
          cases hrest
    | cons c back => exact hback

/-! ## Finding names -/

def nameMatch (front name back : List Char) : Match :=
  ⟨⟨.between front (name ++ back), .between (front ++ name) back⟩, []⟩

theorem start_nameMatch (front name back : List Char) :
    (nameMatch front name back).start = front.length := rfl

theorem text_nameMatch (front name back : List Char) : (nameMatch front name back).text = name :=
  Span.text_between front name back

theorem before_nameMatch (front name back : List Char) :
    (nameMatch front name back).span.start.before = front.getLast? :=
  lastOf_eq_getLast? front

theorem first_identifier_between {front name back : List Char} {groups : Groups}
    (hname : IsName name) (hback : back.head?.any isWordChar = false) :
    First identifier (Place.between front (name ++ back), groups)
      (Place.between (front ++ name) back, groups) := by
  obtain ⟨first, others, rfl, hfirst, hothers⟩ := hname
  have hmany := first_many hothers hback (front ++ [first]) groups
  rw [List.append_assoc] at hmany
  exact .append (first_one hfirst front (others ++ back) groups) hmany

theorem first_namePattern {front name back : List Char} (hname : IsName name)
    (hfront : front.getLast?.any isWordChar = false) (hback : back.head?.any isWordChar = false) :
    First namePattern (Place.between front (name ++ back), [])
      (Place.between (front ++ name) back, []) := by
  have hbegin : (Place.between front (name ++ back)).atWordEdge = true := by
    obtain ⟨first, others, rfl, hfirst, -⟩ := hname
    rw [atWordEdge_between, hfront, List.cons_append, List.head?_cons, Option.any_some,
      isWordChar_of_isNameStart hfirst]
    rfl
  have hend : (Place.between (front ++ name) back).atWordEdge = true := by
    rw [atWordEdge_between, hback, any_getLast?_append_of_word hname.ne_nil hname.word]
    rfl
  exact .append (.append (.wordEdge hbegin) (first_identifier_between hname hback))
    (.wordEdge hend)

theorem isNameStart_of_matchAt?_namePattern {front rest : List Char} {m : Match}
    (h : namePattern.matchAt? (Place.between front rest) = some m) :
    front.getLast?.any isWordChar = false ∧ rest.head?.any isNameStart = true := by
  obtain ⟨out, hout, -⟩ := Option.map_eq_some_iff.1 h
  obtain ⟨mid, hmid, -⟩ := mem_runs_append.1 (List.mem_of_head? hout)
  obtain ⟨start, hstart, hname⟩ := mem_runs_append.1 hmid
  obtain ⟨hedge, rfl⟩ := mem_runs_wordEdge.1 hstart
  obtain ⟨next, hone, -⟩ := mem_runs_append.1 hname
  obtain ⟨c, hrest, hc⟩ := rest_of_mem_one hone
  have hrest : rest = c :: next.1.rest := hrest
  rw [atWordEdge_between, hrest, List.head?_cons, Option.any_some,
    isWordChar_of_isNameStart hc] at hedge
  refine ⟨by simpa using hedge, ?_⟩
  rw [hrest]
  exact hc

theorem matchAt?_namePattern_iff {front rest : List Char} {m : Match} :
    namePattern.matchAt? (Place.between front rest) = some m ↔
      ∃ name back, rest = name ++ back ∧ NameAt (front ++ rest) front name ∧
        back.head?.any isWordChar = false ∧ m = nameMatch front name back := by
  constructor
  · intro h
    obtain ⟨hfront, hrest⟩ := isNameStart_of_matchAt?_namePattern h
    cases rest with
    | nil => cases hrest
    | cons c rest =>
        have hname : IsName (c :: rest.takeWhile isWordChar) :=
          ⟨c, _, rfl, hrest, fun d hd => List.mem_takeWhile_imp hd⟩
        have hback : (rest.dropWhile isWordChar).head?.any isWordChar = false := by
          have hnot := List.head?_dropWhile_not isWordChar rest
          cases hhead : (rest.dropWhile isWordChar).head? with
          | none => rfl
          | some d =>
              rw [hhead] at hnot
              exact hnot
        have hsplit : c :: rest =
            (c :: rest.takeWhile isWordChar) ++ rest.dropWhile isWordChar := by
          rw [List.cons_append, List.takeWhile_append_dropWhile]
        rw [hsplit] at h ⊢
        refine ⟨_, _, rfl, ⟨hname, hfront, _, rfl, hback⟩, hback, ?_⟩
        rw [(first_namePattern hname hfront hback).matchAt?_eq] at h
        exact (Option.some.inj h).symm
  · rintro ⟨name, back, rfl, hname, hback, rfl⟩
    exact (first_namePattern hname.isName hname.begins hback).matchAt?_eq

theorem apart_namePattern : namePattern.Apart := by
  intro front more back m hm hmore hstop
  obtain ⟨name, rest, hsplit, hname, -, rfl⟩ := matchAt?_namePattern_iff.1 hm
  rw [← Option.not_isSome_iff_eq_none]
  intro hsome
  obtain ⟨other, hother⟩ := Option.isSome_iff_exists.1 hsome
  -- within a word the character before is one of a word
  have hbegins := (isNameStart_of_matchAt?_namePattern hother).1
  have hlength : more.length ≤ name.length := by
    have hstop' : front.length + more.length < (front ++ name).length := hstop
    rw [List.length_append] at hstop'
    omega
  have hmoreName : more <+: name :=
    List.prefix_of_prefix_length_le ⟨back, rfl⟩ ⟨rest, hsplit.symm⟩ hlength
  rw [any_getLast?_append_of_word hmore
    (fun c hc => hname.isName.word c (hmoreName.subset hc))] at hbegins
  cases hbegins

/-- **The scan finds every name where it stands**, and nothing else. -/
theorem mem_findAll_namePattern {text : List Char} {m : Match} :
    m ∈ namePattern.findAll text ↔
      ∃ front name back, text = front ++ (name ++ back) ∧ NameAt text front name ∧
        back.head?.any isWordChar = false ∧ m = nameMatch front name back := by
  rw [mem_findAll_iff apart_namePattern]
  constructor
  · rintro ⟨front, rest, rfl, -, hm⟩
    obtain ⟨name, back, rfl, hname, hback, rfl⟩ := matchAt?_namePattern_iff.1 hm
    exact ⟨front, name, back, rfl, hname, hback, rfl⟩
  · rintro ⟨front, name, back, rfl, hname, hback, rfl⟩
    refine ⟨front, name ++ back, rfl, ?_, ?_⟩
    · intro hnil
      exact hname.isName.ne_nil (List.append_eq_nil_iff.1 hnil).1
    · exact matchAt?_namePattern_iff.2 ⟨name, back, rfl, hname, hback, rfl⟩

/-! ## Places -/

theorem exists_places_of_found (code : List Char) {found : List Match}
    {nameOf : Match → List Char} {At : List Char → List Char → Prop}
    (hordered : found.Pairwise (fun m n => m.start < n.start))
    (hfound : ∀ m ∈ found, m.start ≤ code.length ∧ At (code.take m.start) (nameOf m))
    (hall : ∀ front name, At front name →
      ∃ m ∈ found, code.take m.start = front ∧ nameOf m = name) :
    ∃ places : List (List Char × List Char),
      places.Pairwise (fun p q => p.1.length < q.1.length) ∧
        (∀ front name, (front, name) ∈ places ↔ At front name) ∧
          found.map (fun m => String.ofList (nameOf m)) =
            places.map (fun p => String.ofList p.2) := by
  refine ⟨found.map (fun m => (code.take m.start, nameOf m)), ?_, ?_, ?_⟩
  · refine List.pairwise_map.2 (hordered.imp_of_mem ?_)
    intro m n hm hn hlt
    rw [List.length_take_of_le (hfound m hm).1, List.length_take_of_le (hfound n hn).1]
    exact hlt
  · intro front name
    rw [List.mem_map]
    constructor
    · rintro ⟨m, hm, heq⟩
      obtain ⟨rfl, rfl⟩ := Prod.mk.inj heq
      exact (hfound m hm).2
    · intro hat
      obtain ⟨m, hm, rfl, rfl⟩ := hall front name hat
      exact ⟨m, hm, rfl⟩
  · rw [List.map_map]
    rfl

theorem mem_of_places {places : List (List Char × List Char)} {names : List String}
    {At : List Char → List Char → Prop}
    (hplaces : ∀ front name, (front, name) ∈ places ↔ At front name)
    (hnames : names = places.map (fun p => String.ofList p.2)) {word : String} :
    word ∈ names ↔ ∃ front name, At front name ∧ word = String.ofList name := by
  rw [hnames, List.mem_map]
  constructor
  · rintro ⟨⟨front, name⟩, hmem, rfl⟩
    exact ⟨front, name, (hplaces front name).1 hmem, rfl⟩
  · rintro ⟨front, name, hat, rfl⟩
    exact ⟨(front, name), (hplaces front name).2 hat, rfl⟩

/-! ## Mentions and reads -/

/-- A name is read where it stands on a masked line: it is no keyword, no attribute, and the place
is not that of a plain target or of a keyword argument. -/
structure ReadAt (code : List Char) (depth : Nat) (front name : List Char) : Prop where
  nameAt : NameAt code front name
  not_keyword : isKeyword (String.ofList name) = false
  not_attribute : front.getLast? ≠ some '.'
  not_target : ∀ a ∈ assignments code depth, a.start = front.length → a.kind = .compound

theorem mem_mentions_iff {code : List Char} {depth : Nat} {word : String} :
    word ∈ (scanCode code depth).mentions ↔
      ∃ front name, NameAt code front name ∧ word = String.ofList name := by
  show word ∈ (namePattern.findAll code).map _ ↔ _
  rw [List.mem_map]
  constructor
  · rintro ⟨m, hm, rfl⟩
    obtain ⟨front, name, back, -, hname, -, rfl⟩ := mem_findAll_namePattern.1 hm
    exact ⟨front, name, hname, by rw [text_nameMatch]⟩
  · rintro ⟨front, name, hname, rfl⟩
    obtain ⟨back, htext, hback⟩ := hname.ends
    refine ⟨nameMatch front name back, ?_, by rw [text_nameMatch]⟩
    exact mem_findAll_namePattern.2 ⟨front, name, back, htext, hname, hback, rfl⟩

theorem isRead_nameMatch {code : List Char} {depth : Nat} {front name : List Char}
    (back : List Char) (hname : NameAt code front name) :
    isRead (assignments code depth) (nameMatch front name back) = true ↔
      ReadAt code depth front name := by
  have htargets : (!(assignments code depth).any
      (fun a => a.kind != .compound && a.start == front.length)) = true ↔
        ∀ a ∈ assignments code depth, a.start = front.length → a.kind = .compound := by
    simp only [Bool.not_eq_true', List.any_eq_false, Bool.and_eq_true, bne_iff_ne, beq_iff_eq]
    constructor
    · intro h a ha hstart
      by_contra hkind
      exact h a ha ⟨hkind, hstart⟩
    · intro h a ha hboth
      exact hboth.1 (h a ha hboth.2)
  rw [isRead, text_nameMatch, before_nameMatch, start_nameMatch, Bool.and_eq_true,
    Bool.and_eq_true, Bool.not_eq_true', htargets, bne_iff_ne]
  constructor
  · rintro ⟨⟨hkeyword, htarget⟩, hdot⟩
    exact ⟨hname, hkeyword, hdot, htarget⟩
  · intro h
    exact ⟨⟨h.not_keyword, h.not_target⟩, h.not_attribute⟩

/-- What is read on a line, as places: the names that stand to be read, from left to right. -/
def IsReading (code : List Char) (depth : Nat) (reads : List String) : Prop :=
  ∃ places : List (List Char × List Char),
    places.Pairwise (fun p q => p.1.length < q.1.length) ∧
      (∀ front name, (front, name) ∈ places ↔ ReadAt code depth front name) ∧
        reads = places.map (fun p => String.ofList p.2)

/-- **The reads of a masked line.** -/
theorem isReading_scanCode (code : List Char) (depth : Nat) :
    IsReading code depth (scanCode code depth).reads := by
  let found := (namePattern.findAll code).filter (isRead (assignments code depth))
  have hordered : found.Pairwise (fun m n => m.start < n.start) :=
    (pairwise_findAll namePattern code).filter _
  refine exists_places_of_found code hordered ?_ ?_
  · intro m hm
    obtain ⟨hmem, hread⟩ := List.mem_filter.1 hm
    obtain ⟨front, name, back, hcode, hname, -, rfl⟩ := mem_findAll_namePattern.1 hmem
    rw [start_nameMatch, text_nameMatch, hcode, List.take_left, List.length_append, ← hcode]
    exact ⟨Nat.le_add_right _ _, (isRead_nameMatch back hname).1 hread⟩
  · intro front name hread
    obtain ⟨back, hcode, hback⟩ := hread.nameAt.ends
    refine ⟨nameMatch front name back, List.mem_filter.2 ⟨?_, ?_⟩, ?_, text_nameMatch ..⟩
    · exact mem_findAll_namePattern.2 ⟨front, name, back, hcode, hread.nameAt, hback, rfl⟩
    · exact (isRead_nameMatch back hread.nameAt).2 hread
    · rw [start_nameMatch, hcode, List.take_left]

theorem mem_reads_iff {code : List Char} {depth : Nat} {word : String} :
    word ∈ (scanCode code depth).reads ↔
      ∃ front name, ReadAt code depth front name ∧ word = String.ofList name := by
  obtain ⟨places, -, hplaces, hreads⟩ := isReading_scanCode code depth
  exact mem_of_places hplaces hreads

theorem eq_scanCode_of_roleAt {depth : Nat} {text : Line} {className : Option String}
    {scan : LineScan} (h : roleAt depth text = .code className scan) :
    scan = scanCode (maskLine .hash text) depth := by
  unfold roleAt at h
  dsimp only at h
  split at h
  · cases h
  · split at h
    · cases h
    · exact (Role.code.inj h).2.symm

end CodeSurvey.Python
