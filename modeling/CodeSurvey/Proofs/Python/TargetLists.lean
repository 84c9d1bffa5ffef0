/-
# Lists of names in front of an equals sign

Names behind commas are the one spelling of several targets that the scan reads (`IsBareList`).  Its
pattern runs through such a list to the end, round after round, and it matches nothing else
(`tupleTargets?_of_isBareList`, `isBareList_of_tupleTargets?`).  Of a list in brackets, or with a
star or a comma too many, every name is lost that another one follows.
-/
import CodeSurvey.Proofs.Python.Origins

namespace CodeSurvey.Python

open Text Pattern

/-! ## Bare lists -/

/-- The characters of a target list in any spelling: names, blanks, commas, brackets and stars. -/
def isListChar (c : Char) : Bool := isTargetChar c || c == '[' || c == ']' || c == '*'

theorem isListChar_of_isTargetChar {c : Char} (h : isTargetChar c = true) :
    isListChar c = true := by
  rw [isListChar, h]
  rfl

theorem isListChar_of_isBlank {c : Char} (h : isBlank c = true) : isListChar c = true :=
  isListChar_of_isTargetChar (isTargetChar_of_isBlank h)

theorem isListChar_of_isWordChar {c : Char} (h : isWordChar c = true) : isListChar c = true := by
  refine isListChar_of_isTargetChar ?_
  rw [isTargetChar, h]
  rfl

theorem takeWhile_isListChar {text : List Char} (h : ∀ c ∈ text, isListChar c = true)
    (rest : List Char) : (text ++ '=' :: rest).takeWhile isListChar = text := by
  rw [List.takeWhile_append_of_pos h, List.takeWhile_cons_of_neg (by decide), List.append_nil]

/-- Names behind commas, with blanks around the commas. -/
inductive Followers : List Char → Prop
  | nil : Followers []
  | cons {gap space name rest : List Char} : (∀ c ∈ gap, isBlank c = true) →
      (∀ c ∈ space, isBlank c = true) → IsName name → Followers rest →
      Followers (gap ++ ',' :: (space ++ (name ++ rest)))

/-- Two names or more with commas between them, and blanks around. -/
inductive IsBareList : List Char → Prop
  | intro {indent name rest margin : List Char} : (∀ c ∈ indent, isBlank c = true) →
      IsName name → Followers rest → rest ≠ [] → (∀ c ∈ margin, isBlank c = true) →
      IsBareList (indent ++ (name ++ (rest ++ margin)))

namespace Followers

theorem append {text more : List Char} (h : Followers text) (hmore : Followers more) :
    Followers (text ++ more) := by
  induction h with
  | nil => exact hmore
  | cons hgap hspace hname _ ih =>
      rw [List.append_assoc, List.cons_append, List.append_assoc, List.append_assoc]
      exact .cons hgap hspace hname ih

theorem head?_append {text back : List Char} (h : Followers text)
    (hback : back.head?.any isWordChar = false) : (text ++ back).head?.any isWordChar = false := by
  cases h with
  | nil => exact hback
  | @cons gap space name rest hgap _ _ _ =>
      rw [List.append_assoc]
      exact head?_append_of_blank hgap rfl

theorem isListChar {text : List Char} (h : Followers text) : ∀ c ∈ text, isListChar c = true := by
  induction h with
  | nil => exact List.forall_mem_nil _
  | cons hgap hspace hname _ ih =>
      have hword := fun c hc => isListChar_of_isWordChar (hname.word c hc)
      have hbehind := List.forall_mem_append.2 ⟨fun c hc => isListChar_of_isBlank (hspace c hc),
        List.forall_mem_append.2 ⟨hword, ih⟩⟩
      exact List.forall_mem_append.2 ⟨fun c hc => isListChar_of_isBlank (hgap c hc),
        List.forall_mem_cons.2 ⟨rfl, hbehind⟩⟩

end Followers

theorem IsBareList.isListChar {text : List Char} (h : IsBareList text) :
    ∀ c ∈ text, isListChar c = true := by
  obtain ⟨hindent, hname, hrest, -, hmargin⟩ := h
  have hword := fun c hc => isListChar_of_isWordChar (hname.word c hc)
  have hbehind := List.forall_mem_append.2 ⟨hrest.isListChar,
    fun c hc => isListChar_of_isBlank (hmargin c hc)⟩
  exact List.forall_mem_append.2 ⟨fun c hc => isListChar_of_isBlank (hindent c hc),
    List.forall_mem_append.2 ⟨hword, hbehind⟩⟩

/-! ## The rounds of the pattern -/

/-- A comma and a name, in a round of the pattern. -/
def follower : Pattern := blanks ++ char ',' ++ blanks ++ identifier

theorem first_follower {gap space name rest : List Char} (hgap : ∀ c ∈ gap, isBlank c = true)
    (hspace : ∀ c ∈ space, isBlank c = true) (hname : IsName name)
    (hrest : rest.head?.any isWordChar = false) (front : List Char) (groups : Groups) :
    First follower (Place.between front (gap ++ ',' :: (space ++ (name ++ rest))), groups)
      (Place.between (front ++ (gap ++ ',' :: (space ++ name))) rest, groups) := by
  have hend : Place.between (front ++ (gap ++ ',' :: (space ++ name))) rest =
      Place.between (front ++ gap ++ [','] ++ space ++ name) rest := by
    simp only [List.append_assoc, List.cons_append, List.nil_append]
  rw [hend]
  refine .append (.append (.append (first_many hgap (by rfl) front groups)
    (first_char ',' _ _ groups)) (first_many hspace (hname.head?_append rest) _ groups)) ?_
  exact first_identifier_between hname hrest

theorem head?_rounds_of_followers {text back : List Char} (h : Followers text)
    (hback : back.head?.any isWordChar = false)
    (hstop : ∀ front groups, follower.runs (Place.between front back, groups) = [])
    (front : List Char) (groups : Groups) (fuel : Nat) (hfuel : text.length ≤ fuel) :
    (roundsOf follower.runs fuel (Place.between front (text ++ back), groups)).head? =
      some (Place.between (front ++ text) back, groups) := by
  induction h generalizing front fuel with
  | nil =>
      rw [List.append_nil]
      exact head?_roundsOf_of_nil (hstop front groups) fuel
  | @cons gap space name rest hgap hspace hname hrest ih =>
      cases fuel with
      | zero => simp at hfuel
      | succ fuel =>
          have hround := first_follower hgap hspace hname (hrest.head?_append hback) front groups
          have hrounds := ih (front ++ (gap ++ ',' :: (space ++ name))) fuel (by
            simp only [List.length_append, List.length_cons] at hfuel
            omega)
          simp only [List.append_assoc, List.cons_append] at hround hrounds ⊢
          refine head?_roundsOf_succ hround ?_ hrounds
          show front.length < (front ++ _).length
          rw [List.length_append, List.length_append, List.length_cons]
          omega

theorem runs_follower_of_equals {margin : List Char} (hmargin : ∀ c ∈ margin, isBlank c = true)
    (value front : List Char) (groups : Groups) :
    follower.runs (Place.between front (margin ++ '=' :: value), groups) = [] := by
  refine List.eq_nil_iff_forall_not_mem.2 ?_
  intro out hout
  have hleads : LeadsTo ',' (Place.between front (margin ++ '=' :: value)) :=
    requires_follower _ out hout
  have htext : ∀ c ∈ margin, isNameText c = true := by
    intro c hc
    rw [isNameText, hmargin c hc]
    rfl
  rcases hleads.mem_or_eq rfl (by decide) (by decide) with hmem | heq
  · exact absurd (htext _ hmem) (by decide)
  · exact absurd heq (by decide)

theorem tuplePattern_eq :
    tuplePattern = textStart ++ blanks ++ group 1 (identifier ++ rounds1 follower) ++ blanks ++
      char '=' := rfl

theorem runs_tuplePattern (here : Place × Groups) :
    tuplePattern.runs here = ((textStart ++ blanks) ++
      (group 1 (identifier ++ rounds1 follower) ++ (blanks ++ char '='))).runs here := by
  rw [tuplePattern_eq, runs_append_assoc, runs_append_assoc]

theorem first_rounds1_of_followers {text back : List Char} (h : Followers text) (hne : text ≠ [])
    (hback : back.head?.any isWordChar = false)
    (hstop : ∀ front groups, follower.runs (Place.between front back, groups) = [])
    (front : List Char) (groups : Groups) :
    First (rounds1 follower) (Place.between front (text ++ back), groups)
      (Place.between (front ++ text) back, groups) := by
  cases h with
  | nil => exact absurd rfl hne
  | @cons gap space name rest hgap hspace hname hrest =>
      have hround := first_follower hgap hspace hname (hrest.head?_append hback) front groups
      have hrounds : First (rounds follower)
          (Place.between (front ++ (gap ++ ',' :: (space ++ name))) (rest ++ back), groups)
          (Place.between (front ++ (gap ++ ',' :: (space ++ name)) ++ rest) back, groups) :=
        head?_rounds_of_followers hrest hback hstop _ groups _ (by simp [Place.between])
      have hboth := First.append hround hrounds
      simp only [List.append_assoc, List.cons_append] at hboth ⊢
      exact hboth

theorem tupleTargets?_of_matchAt? {code : List Char} {m : Match}
    (hm : tuplePattern.matchAt? (.start code) = some m) (hcomparison : isComparison m = false) :
    tupleTargets? code = m.group? 1 := by
  rw [tupleTargets?, anchored_tuplePattern.find?_eq, hm]
  dsimp only
  rw [hcomparison]
  rfl

/-- **The pattern reads a bare list** to its end. -/
theorem tupleTargets?_of_isBareList {indent name rest margin value : List Char}
    (hindent : ∀ c ∈ indent, isBlank c = true) (hname : IsName name) (hrest : Followers rest)
    (hne : rest ≠ []) (hmargin : ∀ c ∈ margin, isBlank c = true) (hvalue : value.head? ≠ some '=') :
    ∃ span, tupleTargets? (indent ++ (name ++ (rest ++ (margin ++ '=' :: value)))) = some span ∧
      span.start.offset = indent.length ∧ span.text = name ++ rest := by
  let back := margin ++ '=' :: value
  have hback : back.head?.any isWordChar = false := head?_append_of_blank hmargin rfl
  let start := Place.between indent (name ++ (rest ++ back))
  let stop := Place.between (indent ++ name ++ rest) back
  have hnames : First (identifier ++ rounds1 follower) (start, []) (stop, []) :=
    .append (first_identifier_between hname (hrest.head?_append hback))
      (first_rounds1_of_followers hrest hne hback (runs_follower_of_equals hmargin value) _ [])
  have hindented : First (textStart ++ blanks)
      (Place.between [] (indent ++ (name ++ (rest ++ back))), []) (start, []) :=
    .append rfl (first_many hindent (hname.head?_append _) [] [])
  have hmatch : First tuplePattern (Place.between [] (indent ++ (name ++ (rest ++ back))), [])
      (Place.between (indent ++ name ++ rest ++ margin ++ ['=']) value, [(1, ⟨start, stop⟩)]) :=
    .append (.append (.append hindented (.group 1 hnames)) (first_many hmargin rfl _ _))
      (first_char '=' _ value _)
  refine ⟨⟨start, stop⟩, ?_, rfl, ?_⟩
  · exact tupleTargets?_of_matchAt? hmatch.matchAt?_eq (beq_false_of_ne hvalue)
  · have htext := Span.text_between indent (name ++ rest) back
    rw [List.append_assoc, ← List.append_assoc indent] at htext
    exact htext

/-! ## What the pattern reads -/

theorem name_of_mem_identifier {here out : Place × Groups} (h : out ∈ identifier.runs here) :
    ∃ name, IsName name ∧ here.1.Takes name out.1 := by
  obtain ⟨mid, hone, hmany⟩ := mem_runs_append.1 h
  obtain ⟨first, htakes, hfirst, -⟩ := takes_of_mem_one hone
  obtain ⟨others, hmore, hothers, -⟩ := takes_of_mem_many hmany
  exact ⟨first :: others, ⟨first, others, rfl, hfirst, hothers⟩, htakes.trans hmore⟩

theorem followers_of_mem_follower {here out : Place × Groups} (h : out ∈ follower.runs here) :
    ∃ text, Followers text ∧ text ≠ [] ∧ here.1.Takes text out.1 := by
  obtain ⟨third, hthird, hname⟩ := mem_runs_append.1 h
  obtain ⟨second, hsecond, hspace⟩ := mem_runs_append.1 hthird
  obtain ⟨first, hgap, hcomma⟩ := mem_runs_append.1 hsecond
  obtain ⟨gap, hgapTakes, hgap, -⟩ := takes_of_mem_many hgap
  obtain ⟨comma, hcommaTakes, hcomma, -⟩ := takes_of_mem_one hcomma
  obtain ⟨space, hspaceTakes, hspace, -⟩ := takes_of_mem_many hspace
  obtain ⟨name, hname, hnameTakes⟩ := name_of_mem_identifier hname
  obtain rfl : comma = ',' := beq_iff_eq.1 hcomma
  have htakes := ((hgapTakes.trans hcommaTakes).trans hspaceTakes).trans hnameTakes
  refine ⟨gap ++ ',' :: (space ++ (name ++ [])), .cons hgap hspace hname .nil, ?_, ?_⟩
  · exact List.append_ne_nil_of_right_ne_nil _ (List.cons_ne_nil _ _)
  · simp only [List.append_assoc, List.cons_append, List.nil_append, List.append_nil] at htakes ⊢
    exact htakes

theorem followers_of_mem_rounds1 {here out : Place × Groups}
    (h : out ∈ (rounds1 follower).runs here) :
    ∃ text, Followers text ∧ text ≠ [] ∧ here.1.Takes text out.1 := by
  have hrounds : ∀ fuel here, ∀ out ∈ roundsOf follower.runs fuel here,
      ∃ text, Followers text ∧ here.1.Takes text out.1 := by
    refine roundsOf_induction ?_ ?_ ?_
    · intro here
      exact ⟨[], .nil, .refl _⟩
    · rintro here mid out ⟨text, htext, htakes⟩ ⟨more, hmore, htakes'⟩
      exact ⟨text ++ more, htext.append hmore, htakes.trans htakes'⟩
    · intro here out hout
      obtain ⟨text, htext, -, htakes⟩ := followers_of_mem_follower hout
      exact ⟨text, htext, htakes⟩
  obtain ⟨mid, hmid, hout⟩ := mem_runs_append.1 h
  obtain ⟨text, htext, hne, htakes⟩ := followers_of_mem_follower hmid
  obtain ⟨more, hmore, htakes'⟩ := hrounds _ _ _ hout
  exact ⟨text ++ more, htext.append hmore, List.append_ne_nil_of_left_ne_nil hne more,
    htakes.trans htakes'⟩

/-- **The pattern reads nothing but bare lists.** -/
theorem isBareList_of_tupleTargets? {code : List Char} {span : Span}
    (h : tupleTargets? code = some span) :
    ∃ text value, IsBareList text ∧ code = text ++ '=' :: value := by
  unfold tupleTargets? at h
  split at h
  · cases h
  · rename_i m hm
    rw [anchored_tuplePattern.find?_eq] at hm
    obtain ⟨start, stop, groups, hindent, hnames, hbehind, -⟩ :=
      parts_of_matchAt? runs_tuplePattern rfl rfl rfl hm
    have hblank : (textStart ++ blanks).Over (isBlank · = true) := ⟨trivial, fun _ hc => hc⟩
    obtain ⟨indent, hindentTakes, hindent⟩ := takes_of_mem_runs hblank hindent
    obtain ⟨mid, hname, hrounds⟩ := mem_runs_append.1 hnames
    obtain ⟨name, hname, hnameTakes⟩ := name_of_mem_identifier hname
    obtain ⟨rest, hrest, hne, hrestTakes⟩ := followers_of_mem_rounds1 hrounds
    obtain ⟨last, hmargin, hequals⟩ := mem_runs_append.1 hbehind
    obtain ⟨margin, hmarginTakes, hmargin, -⟩ := takes_of_mem_many hmargin
    obtain ⟨equals, hequalsTakes, hequals, -⟩ := takes_of_mem_one hequals
    obtain rfl : equals = '=' := beq_iff_eq.1 hequals
    have htakes := (((hindentTakes.trans hnameTakes).trans hrestTakes).trans hmarginTakes).trans
      hequalsTakes
    refine ⟨_, m.span.stop.rest, .intro hindent hname hrest hne hmargin, ?_⟩
    have hcode := htakes.rest
    simp only [List.append_assoc, List.cons_append, List.nil_append] at hcode ⊢
    exact hcode

theorem head?_of_isBareList {list value indent word behind : List Char} (hlist : IsBareList list)
    (hindent : ∀ c ∈ indent, isBlank c = true)
    (hcode : list ++ '=' :: value = indent ++ (word ++ behind))
    (hword : NameAt (indent ++ (word ++ behind)) indent word) :
    (behind.dropWhile isBlank).head? = some ',' := by
  obtain ⟨hindent', hfirst, hrest, hne, hmargin⟩ := hlist
  rename_i indent' first rest margin
  have hsplit : indent' ++ (first ++ (rest ++ (margin ++ '=' :: value))) =
      indent ++ (word ++ behind) := by
    rw [← hcode]
    simp only [List.append_assoc]
  have hat : NameAt (indent' ++ (first ++ (rest ++ (margin ++ '=' :: value)))) indent' first :=
    ⟨hfirst, getLast?_of_blank hindent', _, rfl,
      hrest.head?_append (head?_append_of_blank hmargin rfl)⟩
  -- both words stand behind the blanks at the front
  have hle : indent'.length ≤ indent.length := by
    rw [← hsplit] at hword
    exact hword.length_le_of_blank hindent'
  have hle' : indent.length ≤ indent'.length := by
    rw [hsplit] at hat
    exact hat.length_le_of_blank hindent
  rw [hsplit] at hat
  obtain ⟨rfl, rfl⟩ := hat.eq_of_length hword (Nat.le_antisymm hle hle')
  have hbehind := List.append_cancel_left (List.append_cancel_left hsplit)
  cases hrest with
  | nil => exact absurd rfl hne
  | @cons gap space name more hgap _ _ _ =>
      rw [← hbehind, List.append_assoc, List.dropWhile_append_of_pos hgap]
      rfl

/-! ## Names of a span -/

theorem mem_addTarget_self {found : List Assignment} {name : List Char} {start : Nat}
    (kind : AssignKind) (hkeyword : isKeyword (String.ofList name) = false)
    (hfree : ∀ a ∈ found, a.start ≠ start) :
    ⟨String.ofList name, start, kind⟩ ∈ addTarget found name start kind := by
  have hany : found.any (fun a => a.start == start) = false :=
    List.any_eq_false.2 (fun a ha => beq_iff_eq.not.2 (hfree a ha))
  rw [addTarget, hkeyword, hany]
  exact List.mem_append_right found List.mem_cons_self

/-- Every name of a span is noted, unless something is noted in its place. -/
theorem mem_addNames_of_nameAt {found : List Assignment} {span : Span} {front name : List Char}
    (hname : NameAt span.text front name) (hkeyword : isKeyword (String.ofList name) = false)
    (hfree : ∀ a ∈ found, a.start ≠ span.start.offset + front.length) :
    ⟨String.ofList name, span.start.offset + front.length, .plain⟩ ∈ addNames found span := by
  obtain ⟨back, htext, hback⟩ := hname.ends
  have hmem : nameMatch front name back ∈ namePattern.findAll span.text :=
    mem_findAll_namePattern.2 ⟨front, name, back, htext, hname, hback, rfl⟩
  obtain ⟨earlier, later, hsplit⟩ := List.append_of_mem hmem
  -- the names found earlier stand in other places
  have hordered := pairwise_findAll namePattern span.text
  rw [hsplit] at hordered
  have hearlier : ∀ n ∈ earlier, n.start < front.length :=
    fun n hn => (List.pairwise_append.1 hordered).2.2 n hn _ List.mem_cons_self
  let add : List Assignment → Match → List Assignment :=
    fun found m => addTarget found m.text (span.start.offset + m.start) .plain
  have hbefore : ∀ a ∈ earlier.foldl add found, a.start ≠ span.start.offset + front.length := by
    intro a ha
    have hpass : ∀ found, ∀ n ∈ earlier, ∀ a ∈ add found n,
        a ∈ found ∨ a.start ≠ span.start.offset + front.length := by
      intro found n hn a ha
      refine (mem_addTarget ha).imp id ?_
      intro hstart
      have hlt := hearlier n hn
      omega
    exact (mem_foldl_cases hpass ha).elim (hfree a) id
  have hself : ⟨String.ofList name, span.start.offset + front.length, .plain⟩ ∈
      add (earlier.foldl add found) (nameMatch front name back) := by
    show _ ∈ addTarget _ (nameMatch front name back).text _ _
    rw [text_nameMatch]
    exact mem_addTarget_self .plain hkeyword hbefore
  have hprefix := prefix_foldl (f := add) (fun found m => prefix_addTarget ..)
    (add (earlier.foldl add found) (nameMatch front name back)) later
  rw [addNames, hsplit, List.foldl_append, List.foldl_cons]
  exact hprefix.subset hself

theorem NameAt.between_blanks {gap body margin front name : List Char}
    (h : NameAt (gap ++ (body ++ margin)) front name) (hgap : ∀ c ∈ gap, isBlank c = true)
    (hmargin : ∀ c ∈ margin, isBlank c = true) :
    ∃ more, front = gap ++ more ∧ NameAt body more name := by
  have hle := h.length_le_of_blank hgap
  have hlt : front.length < gap.length + body.length := by
    by_contra hge
    have h' : NameAt (gap ++ body ++ (margin ++ [])) front name := by
      rw [List.append_nil, List.append_assoc]
      exact h
    have hall := h'.not_lt_of_blank hmargin (by rw [List.length_append]; omega)
    have hlength := h.length_lt
    simp only [List.length_append] at hlength hall
    omega
  have hedge : (margin ++ []).head?.any isWordChar = false := head?_append_of_blank hmargin rfl
  rw [List.append_nil] at hedge
  exact h.within (Or.inl hedge) hle hlt

/-! ## Target lists -/

/-- The targets of a statement, written in any way: names that are no keywords, with commas,
brackets, stars and blanks, and no comma in front. -/
structure IsTargetList (text : List Char) : Prop where
  chars : ∀ c ∈ text, isListChar c = true
  not_keyword : ∀ front name, NameAt text front name → isKeyword (String.ofList name) = false
  no_comma : (text.dropWhile isBlank).head? ≠ some ','

/-- No target was taken from a place of a line. -/
def NoTargetAt (code : List Char) (depth start : Nat) : Prop :=
  ∀ a ∈ assignments code depth, a.start ≠ start

/-- Every name of a stretch of a line is a plain target of the line. -/
def AllPlain (code : List Char) (depth : Nat) (before stretch : List Char) : Prop :=
  ∀ front name, NameAt stretch front name →
    ⟨String.ofList name, before.length + front.length, .plain⟩ ∈ assignments code depth

theorem IsTargetList.not_mem {text : List Char} (h : IsTargetList text) {c : Char}
    (hc : isListChar c = false) : c ∉ text := by
  intro hmem
  rw [h.chars c hmem] at hc
  cases hc

theorem IsTargetList.not_within {before text rest front : List Char} (h : IsTargetList text)
    (hedge : rest.head?.any isWordChar = false ∨ text.getLast?.any isWordChar = false)
    {word : String} (hword : isKeyword word = true)
    (hname : NameAt (before ++ (text ++ rest)) front word.toList)
    (hbefore : before.length ≤ front.length) : before.length + text.length ≤ front.length := by
  by_contra hlt
  obtain ⟨more, -, hmore⟩ := hname.within hedge hbefore (by omega)
  have hnot := h.not_keyword more _ hmore
  rw [String.ofList_toList, hword] at hnot
  cases hnot

theorem prefix_assigned (code : List Char) (depth : Nat) :
    (addLineTargets code depth).1 <+: assigned code depth :=
  prefix_foldl (prefix_addAssignment code depth _) _ _

theorem assigned_isPrefix (code : List Char) (depth : Nat) :
    assigned code depth <+: assignments code depth := by
  rw [assignments_eq]
  exact (prefix_foldl prefix_addGroupNames _ _).trans
    ((prefix_foldl prefix_addGroupName _ _).trans (prefix_foldl prefix_addLambda _ _))

theorem IsTargetList.not_leadsTo {text : List Char} (h : IsTargetList text) (value : List Char) :
    ¬LeadsTo ':' (Place.start (text ++ '=' :: value)) := by
  intro hleads
  rcases hleads.mem_or_eq rfl (by decide) (by decide) with hmem | heq
  · exact h.not_mem rfl hmem
  · exact absurd heq (by decide)

/-- **A bare list is read**: all its names are plain targets. -/
theorem allPlain_of_isBareList {text value : List Char} (h : IsTargetList text)
    (hbare : IsBareList text) (hvalue : value.head? ≠ some '=') :
    AllPlain (text ++ '=' :: value) 0 [] text := by
  obtain ⟨hindent, hfirst, hrest, hne, hmargin⟩ := hbare
  rename_i indent first rest margin
  intro front name hname
  have hannotated : annotatedTarget? (indent ++ (first ++ (rest ++ margin)) ++ '=' :: value) =
      none := by
    cases hfind : annotatedTarget? (indent ++ (first ++ (rest ++ margin)) ++ '=' :: value) with
    | none => rfl
    | some found => exact absurd (annotated_of_target? hfind).1 (h.not_leadsTo value)
  obtain ⟨span, hspan, hstart, htext⟩ :=
    tupleTargets?_of_isBareList hindent hfirst hrest hne hmargin hvalue
  have hcode : indent ++ (first ++ (rest ++ margin)) ++ '=' :: value =
      indent ++ (first ++ (rest ++ (margin ++ '=' :: value))) := by
    simp only [List.append_assoc]
  rw [← hcode] at hspan
  have hline : (addLineTargets (indent ++ (first ++ (rest ++ margin)) ++ '=' :: value) 0).1 =
      addNames [] span := by
    rw [addLineTargets, hannotated, hspan]
    rfl
  have hname' : NameAt (indent ++ (first ++ rest ++ margin)) front name := by
    rw [List.append_assoc]
    exact hname
  obtain ⟨more, rfl, hmore⟩ := hname'.between_blanks hindent hmargin
  rw [← htext] at hmore
  have hfree : ∀ a ∈ ([] : List Assignment), a.start ≠ span.start.offset + more.length :=
    List.forall_mem_nil _
  have hmem := mem_addNames_of_nameAt hmore (h.not_keyword _ _ hname) hfree
  rw [← hline, hstart, ← List.length_append] at hmem
  rw [List.length_nil, Nat.zero_add]
  exact (assigned_isPrefix _ 0).subset ((prefix_assigned _ 0).subset hmem)

/-! ## Lists that are not read -/

theorem NameAt.split {text front name front' name' : List Char} (h : NameAt text front name)
    (h' : NameAt text front' name') (hlt : front.length < front'.length) :
    ∃ c between, front' = front ++ (name ++ c :: between) ∧ isWordChar c = false := by
  obtain ⟨back, htext, hback⟩ := h.ends
  obtain ⟨back', htext', -⟩ := h'.ends
  have hapart := h.apart h' hlt
  obtain ⟨more, rfl⟩ : front ++ name <+: front' := by
    refine List.prefix_of_prefix_length_le ⟨back, ?_⟩ ⟨_, htext'.symm⟩ ?_
    · rw [htext, List.append_assoc]
    · rw [List.length_append]
      omega
  cases more with
  | nil =>
      rw [List.append_nil, List.length_append] at hapart
      omega
  | cons c between =>
      rw [htext, List.append_assoc, List.append_assoc] at htext'
      have hrest := List.append_cancel_left (List.append_cancel_left htext')
      rw [hrest] at hback
      exact ⟨c, between, List.append_assoc .., hback⟩

theorem suffix_dropWhile {p : Char → Bool} {c : Char} (hc : p c = false) (front back : List Char) :
    c :: back <:+ (front ++ c :: back).dropWhile p := by
  induction front with
  | nil =>
      have hkept : (c :: back).dropWhile p = c :: back :=
        List.dropWhile_cons_of_neg (Bool.eq_false_iff.1 hc)
      exact ⟨[], hkept.symm⟩
  | cons d front ih =>
      rw [List.cons_append, List.dropWhile_cons]
      split
      · exact ih
      · exact (List.suffix_append _ _).trans (List.suffix_cons d _)

/-- A name that another one follows is not the one in front of the equals sign. -/
theorem NameAt.not_oneWord {text front name front' name' : List Char} (h : NameAt text front name)
    (h' : NameAt text front' name') (hlt : front.length < front'.length) (hequals : '=' ∉ front')
    {back : List Char} (hback : text = front ++ back) : ¬OneWord back := by
  intro hword
  obtain ⟨c, between, rfl, hc⟩ := h.split h' hlt
  obtain ⟨rest, htext, -⟩ := h'.ends
  obtain ⟨first, others, rfl, hfirst, -⟩ := h'.isName
  have hfirstWord := isWordChar_of_isNameStart hfirst
  have hinner : ∀ d ∈ name ++ c :: between ++ [first], (d != '=') = true := by
    intro d hd
    refine bne_iff_ne.2 ?_
    rintro rfl
    rcases List.mem_append.1 hd with hd | hd
    · exact hequals (List.mem_append_right front hd)
    · rw [← List.mem_singleton.1 hd] at hfirst
      exact absurd hfirst (by decide)
  have hsplit : back = name ++ c :: between ++ [first] ++ (others ++ rest) := by
    rw [hback, List.append_assoc] at htext
    rw [List.append_cancel_left htext]
    simp only [List.append_assoc, List.cons_append, List.nil_append]
  have hmem : first ∈ (back.takeWhile (· != '=')).dropWhile isWordChar := by
    rw [hsplit, List.takeWhile_append_of_pos hinner, List.append_assoc, List.append_assoc,
      List.cons_append]
    refine (suffix_dropWhile hc name _).subset ?_
    simp
  rw [hword first hmem] at hfirstWord
  cases hfirstWord

/-- **Of any other list, a name that another one follows is lost.** -/
theorem noTargetAt_of_not_isBareList {text value : List Char} (h : IsTargetList text)
    (hbare : ¬IsBareList text) {front name front' name' : List Char}
    (hname : NameAt text front name) (hnext : NameAt text front' name')
    (hlt : front.length < front'.length) :
    NoTargetAt (text ++ '=' :: value) 0 front.length := by
  have hinside := hnext.length_lt
  have hword : ∀ {word : String} {before : List Char}, isKeyword word = true →
      NameAt (text ++ '=' :: value) before word.toList → text.length ≤ before.length := by
    intro word before hkeyword hat
    have hat' : NameAt ([] ++ (text ++ '=' :: value)) before word.toList := hat
    have hle := h.not_within (Or.inl rfl) hkeyword hat' (Nat.zero_le _)
    rwa [List.length_nil, Nat.zero_add] at hle
  have houter : ∀ {before word : List Char}, NameAt text before word →
      NameAt (text ++ '=' :: value) before word := by
    intro before word hat
    have hat' : NameAt ([] ++ (text ++ '=' :: value)) ([] ++ before) word :=
      hat.outer (Or.inl rfl) (Or.inl rfl)
    exact hat'
  intro a ha hstart
  cases origin_of_mem ha with
  | written hwritten =>
      rcases hwritten with ⟨-, -, hleads, -⟩ | ⟨-, htuple⟩ | ⟨hcode, honeWord, hplace⟩
      · exact h.not_leadsTo value hleads
      · obtain ⟨list, rest, hlist, hcode⟩ := isBareList_of_tupleTargets? htuple
        have htake := takeWhile_isListChar h.chars value
        rw [hcode, takeWhile_isListChar hlist.isListChar rest] at htake
        rw [htake] at hlist
        exact hbare hlist
      · obtain ⟨rest, htext, -⟩ := (houter hname).ends
        obtain ⟨rfl, -⟩ := List.append_inj (htext.symm.trans hcode) (hstart.symm.trans hplace)
        refine (houter hname).not_oneWord (houter hnext) hlt ?_ hcode honeWord
        intro hmem
        obtain ⟨_, hsplit, -⟩ := hnext.ends
        exact h.not_mem rfl (by rw [hsplit]; exact List.mem_append_left _ hmem)
  | loop hloop hlt' =>
      have hle := hword rfl hloop.begins
      omega
  | word hkind hat hlt' =>
      rcases hkind with rfl | rfl
      · have hle := hword rfl hat
        omega
      · have hle := hword rfl hat
        omega

end CodeSurvey.Python
