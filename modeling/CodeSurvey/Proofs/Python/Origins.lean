/-
# Where the targets of a line come from

Five patterns look for targets, and each takes them from a place of its own.  `Origin` says for a
place of a masked line which pattern may have taken a target there and what then stands on the line:
one constructor for each kind, and one lemma that inverts the whole collection (`origin_of_mem`).
What stands on a line so tells where no target can be.
-/
import CodeSurvey.Proofs.Pattern.Repetition
import CodeSurvey.Proofs.Python.Names
import CodeSurvey.Proofs.Python.Targets

namespace CodeSurvey.Python

open Text Pattern

/-! ## What each pattern reads -/

/-- One word, and behind it nothing of a word up to an equals sign. -/
def OneWord (rest : List Char) : Prop :=
  ∀ c ∈ (rest.takeWhile (· != '=')).dropWhile isWordChar, isWordChar c = false

theorem over_literal {P : Char → Prop} {text : String} (h : ∀ c ∈ text.toList, P c) :
    (literal text).Over P := by
  unfold literal
  generalize text.toList = cs at h
  induction cs with
  | nil => trivial
  | cons c cs ih =>
      obtain ⟨hc, hothers⟩ := List.forall_mem_cons.1 h
      refine ⟨fun d hd => ?_, ih hothers⟩
      rw [beq_iff_eq.1 hd]
      exact hc

/-- Characters that are neither of a word nor an equals sign. -/
def IsSeparator (c : Char) : Prop := isWordChar c = false ∧ c ≠ '='

theorem isSeparator_of_isBlank {c : Char} (h : isBlank c = true) : IsSeparator c := by
  refine ⟨not_isWordChar_of_isBlank h, ?_⟩
  rintro rfl
  exact absurd h (by decide)

theorem over_operator :
    (optional (either (oneOf ["//", "**", ">>", "<<"]) (one isUpdateOperator))).Over
      IsSeparator := by
  have hmarks : ∀ text ∈ ["//", "**", ">>", "<<"], (literal text).Over IsSeparator := by
    intro text htext
    refine over_literal ?_
    have hall : ["//", "**", ">>", "<<"].all
        (fun text => text.toList.all (fun c => !isWordChar c && c != '=')) = true := by decide
    intro c hc
    have hchar := List.all_eq_true.1 (List.all_eq_true.1 hall text htext) c hc
    simpa [IsSeparator] using hchar
  have hsingle : ∀ c, isUpdateOperator c = true → IsSeparator c := by
    intro c hc
    have hmem : c ∈ ['-', '+', '*', '/', '%', '&', '|', '^', '@'] := List.contains_iff_mem.1 hc
    have hall : ['-', '+', '*', '/', '%', '&', '|', '^', '@'].all
        (fun c => !isWordChar c && c != '=') = true := by decide
    simpa [IsSeparator] using List.all_eq_true.1 hall c hmem
  refine ⟨⟨⟨hmarks _ (by simp), hmarks _ (by simp), hmarks _ (by simp), hmarks _ (by simp)⟩,
    hsingle⟩, trivial⟩

theorem runs_assignmentPattern (here : Place × Groups) :
    assignmentPattern.runs here =
      (wordEdge ++ (group 1 identifier ++ (blanks ++
        (optional (either (oneOf ["//", "**", ">>", "<<"]) (one isUpdateOperator)) ++
          char '=')))).runs here := by
  rw [assignmentPattern, runs_append_assoc, runs_append_assoc, runs_append_assoc]

theorem runs_annotatedPattern (here : Place × Groups) :
    annotatedPattern.runs here =
      ((textStart ++ blanks) ++ (group 1 identifier ++ (blanks ++ (char ':' ++
        (many (· != '=') ++ char '='))))).runs here := by
  rw [annotatedPattern, runs_append_assoc, runs_append_assoc, runs_append_assoc,
    runs_append_assoc]

theorem runs_asPattern (here : Place × Groups) :
    asPattern.runs here =
      ((wordEdge ++ (literal "as" ++ blanks1)) ++ (group 1 identifier ++ wordEdge)).runs here := by
  rw [asPattern, runs_append_assoc]
  show List.flatMap _ ((wordEdge ++ literal "as" ++ blanks1).runs here) = _
  rw [runs_append_assoc]
  rfl

theorem runs_lambdaPattern (here : Place × Groups) :
    lambdaPattern.runs here =
      ((wordEdge ++ (literal "lambda" ++ wordEdge)) ++
        (group 1 (many (· != ':')) ++ char ':')).runs here := by
  rw [lambdaPattern, runs_append_assoc]
  show List.flatMap _ ((wordEdge ++ literal "lambda" ++ wordEdge).runs here) = _
  rw [runs_append_assoc]
  rfl

theorem oneWord_of_append {name between rest : List Char}
    (hname : ∀ c ∈ name, isWordChar c = true) (hbetween : ∀ c ∈ between, IsSeparator c) :
    OneWord (name ++ (between ++ '=' :: rest)) := by
  have hfront : ∀ c ∈ name ++ between, (c != '=') = true := by
    intro c hc
    refine bne_iff_ne.2 ?_
    rcases List.mem_append.1 hc with hc | hc
    · rintro rfl
      exact absurd (hname _ hc) (by decide)
    · exact (hbetween c hc).2
  intro c hc
  rw [← List.append_assoc, List.takeWhile_append_of_pos hfront,
    List.takeWhile_cons_of_neg (by decide), List.append_nil,
    List.dropWhile_append_of_pos hname] at hc
  exact (hbetween c ((List.dropWhile_suffix isWordChar).subset hc)).1

/-- Behind the name of an assignment nothing of a word stands in front of the equals sign. -/
theorem oneWord_of_assignment {front back : List Char} {m : Match}
    (hm : assignmentPattern.matchAt? (Place.between front back) = some m) :
    OneWord back ∧ ∃ stop, m.group? 1 = some ⟨Place.between front back, stop⟩ := by
  obtain ⟨start, stop, groups, hedge, hname, hbehind, hgroup⟩ :=
    parts_of_matchAt? runs_assignmentPattern rfl rfl rfl hm
  obtain ⟨-, hstart⟩ := mem_runs_wordEdge.1 hedge
  obtain rfl : start = Place.between front back := congrArg Prod.fst hstart
  refine ⟨?_, stop, hgroup⟩
  have hidentifier : identifier.Over (isWordChar · = true) :=
    ⟨fun _ hc => isWordChar_of_isNameStart hc, fun _ hc => hc⟩
  obtain ⟨name, hnameTakes, hnameWord⟩ := takes_of_mem_runs hidentifier hname
  obtain ⟨gap, hgap, hrest⟩ := mem_runs_append.1 hbehind
  obtain ⟨mark, hmark, hequals⟩ := mem_runs_append.1 hrest
  have hblanks : blanks.Over IsSeparator := fun _ hc => isSeparator_of_isBlank hc
  obtain ⟨space, hspaceTakes, hspace⟩ := takes_of_mem_runs hblanks hgap
  obtain ⟨operator, hoperatorTakes, hoperator⟩ := takes_of_mem_runs over_operator hmark
  obtain ⟨c, hlast, hc⟩ := rest_of_mem_one hequals
  rw [beq_iff_eq.1 hc] at hlast
  have hback : back = name ++ (space ++ operator ++ '=' :: m.span.stop.rest) := by
    have hthere : back = name ++ stop.rest := hnameTakes.rest
    rw [hthere, show stop.rest = space ++ gap.1.rest from hspaceTakes.rest, hoperatorTakes.rest,
      hlast, List.append_assoc]
  rw [hback]
  refine oneWord_of_append hnameWord ?_
  intro d hd
  exact (List.mem_append.1 hd).elim (hspace d) (hoperator d)

/-! ## Words in front of targets -/

theorem place_of_mem_literal {word : String} {front back : List Char} {groups : Groups}
    {mid : Place × Groups} (h : mid ∈ (literal word).runs (Place.between front back, groups)) :
    back = word.toList ++ mid.1.rest ∧ mid.1 = Place.between (front ++ word.toList) mid.1.rest := by
  obtain ⟨rest, hback, hplace⟩ := between_of_mem_literal h
  have hrest : mid.1.rest = rest := by
    rw [hplace]
    rfl
  rw [hrest]
  exact ⟨hback, hplace⟩

theorem nameAt_of_literal {word : String} (hword : IsName word.toList) {front rest : List Char}
    (hfront : (Place.between front (word.toList ++ rest)).atWordEdge = true)
    (hrest : rest.head?.any isWordChar = false) :
    NameAt (front ++ (word.toList ++ rest)) front word.toList := by
  refine ⟨hword, ?_, rest, rfl, hrest⟩
  obtain ⟨first, others, hname, hfirst, -⟩ := hword
  rw [atWordEdge_between, hname, List.cons_append, List.head?_cons, Option.any_some,
    isWordChar_of_isNameStart hfirst] at hfront
  simpa using hfront

theorem head?_of_wordEdge {front rest : List Char} (hword : front.getLast?.any isWordChar = true)
    (hedge : (Place.between front rest).atWordEdge = true) :
    rest.head?.any isWordChar = false := by
  rw [atWordEdge_between, hword] at hedge
  simpa using hedge

theorem nameAt_of_mem_word {word : String} (hword : IsName word.toList) {front back : List Char}
    {start : Place} {groups groups' : Groups}
    (h : (start, groups') ∈ (wordEdge ++ (literal word ++ blanks1)).runs
      (Place.between front back, groups)) :
    NameAt (front ++ back) front word.toList ∧
      ∃ gap rest, back = word.toList ++ (gap ++ rest) ∧ gap ≠ [] ∧ (∀ c ∈ gap, isBlank c = true) ∧
        start = Place.between (front ++ word.toList ++ gap) rest := by
  obtain ⟨first, hfirst, hrest⟩ := mem_runs_append.1 h
  obtain ⟨hedge, rfl⟩ := mem_runs_wordEdge.1 hfirst
  obtain ⟨mid, hmid, hblanks⟩ := mem_runs_append.1 hrest
  obtain ⟨hback, hplace⟩ := place_of_mem_literal hmid
  obtain ⟨midPlace, midGroups⟩ := mid
  have hplace : midPlace = Place.between (front ++ word.toList) midPlace.rest := hplace
  rw [hplace] at hblanks
  obtain ⟨gap, rest, hgap, hne, hblank, hstart⟩ := between_of_mem_blanks1 hblanks
  have hback : back = word.toList ++ (gap ++ rest) := by
    rw [hback, ← hgap]
  have hnext := head?_append_of_ne_nil hblank hne rest
  refine ⟨?_, gap, rest, hback, hne, hblank, hstart⟩
  rw [hback] at hedge ⊢
  exact nameAt_of_literal hword hedge hnext

theorem isName_of_all {word : String} {first : Char} {others : List Char}
    (hword : word.toList = first :: others) (hfirst : isNameStart first = true)
    (hothers : others.all isWordChar = true) : IsName word.toList :=
  ⟨first, others, hword, hfirst, List.all_eq_true.1 hothers⟩

theorem as_of_matchAt? {front back : List Char} {m : Match}
    (hm : asPattern.matchAt? (Place.between front back) = some m) :
    NameAt (front ++ back) front "as".toList ∧
      ∃ span, m.group? 1 = some span ∧ front.length < span.start.offset := by
  obtain ⟨start, stop, groups, hstart, -, -, hgroup⟩ :=
    parts_of_matchAt? runs_asPattern rfl rfl rfl hm
  have hword : IsName "as".toList := isName_of_all rfl rfl rfl
  obtain ⟨hname, gap, rest, -, -, -, hplace⟩ := nameAt_of_mem_word hword hstart
  refine ⟨hname, _, hgroup, ?_⟩
  rw [hplace]
  simp [Place.between]

theorem lambda_of_matchAt? {front back : List Char} {m : Match}
    (hm : lambdaPattern.matchAt? (Place.between front back) = some m) :
    NameAt (front ++ back) front "lambda".toList ∧
      ∃ span, m.group? 1 = some span ∧ front.length < span.start.offset := by
  obtain ⟨start, stop, groups, hstart, -, -, hgroup⟩ :=
    parts_of_matchAt? runs_lambdaPattern rfl rfl rfl hm
  obtain ⟨first, hfirst, hrest⟩ := mem_runs_append.1 hstart
  obtain ⟨hedge, rfl⟩ := mem_runs_wordEdge.1 hfirst
  obtain ⟨mid, hmid, hend⟩ := mem_runs_append.1 hrest
  obtain ⟨hback, hplace⟩ := place_of_mem_literal hmid
  obtain ⟨hendEdge, hmidStart⟩ := mem_runs_wordEdge.1 hend
  obtain rfl : mid = (start, []) := hmidStart.symm
  have hplace : start = Place.between (front ++ "lambda".toList) start.rest := hplace
  have hback : back = "lambda".toList ++ start.rest := hback
  have hlast : (front ++ "lambda".toList).getLast?.any isWordChar = true := by
    rw [List.getLast?_append]
    rfl
  have hnext : start.rest.head?.any isWordChar = false := by
    have hedge : start.atWordEdge = true := hendEdge
    rw [hplace] at hedge
    exact head?_of_wordEdge hlast hedge
  have hword : IsName "lambda".toList := isName_of_all rfl rfl rfl
  refine ⟨?_, _, hgroup, ?_⟩
  · rw [hback] at hedge ⊢
    exact nameAt_of_literal hword hedge hnext
  · rw [hplace]
    simp [Place.between]

/-- A loop on a line: between `for` and `in`, with blanks on both sides, stands a text that begins
like a name and has nothing but names, blanks, commas and parentheses. -/
structure IsLoop (code front targets : List Char) : Prop where
  begins : NameAt code front "for".toList
  ends : NameAt code (front ++ "for".toList ++ targets) "in".toList
  targets_eq : ∃ gap body margin, targets = gap ++ (body ++ margin) ∧
    (∀ c ∈ gap, isBlank c = true) ∧ (∀ c ∈ margin, isBlank c = true) ∧ margin ≠ [] ∧
    body.head?.any isNameStart = true ∧ ∀ c ∈ body, isTargetChar c = true

theorem isTargetChar_of_isNameStart {c : Char} (h : isNameStart c = true) :
    isTargetChar c = true := by
  rw [isTargetChar, isWordChar_of_isNameStart h]
  rfl

theorem isTargetChar_of_isBlank {c : Char} (h : isBlank c = true) : isTargetChar c = true := by
  rw [isTargetChar, h, Bool.or_true]
  rfl

theorem runs_forPattern (here : Place × Groups) :
    forPattern.runs here =
      ((wordEdge ++ (literal "for" ++ blanks1)) ++ (group 1 (one isNameStart ++ few isTargetChar) ++
        (blanks1 ++ (literal "in" ++ wordEdge)))).runs here := by
  rw [forPattern, runs_append_assoc, runs_append_assoc, runs_append_assoc]
  show List.flatMap _ ((wordEdge ++ literal "for" ++ blanks1).runs here) = _
  rw [runs_append_assoc]
  rfl

theorem in_of_mem_runs {front back : List Char} {groups : Groups} {out : Place × Groups}
    (h : out ∈ (blanks1 ++ (literal "in" ++ wordEdge)).runs (Place.between front back, groups)) :
    ∃ margin rest, back = margin ++ ("in".toList ++ rest) ∧ margin ≠ [] ∧
      (∀ c ∈ margin, isBlank c = true) ∧ NameAt (front ++ back) (front ++ margin) "in".toList := by
  obtain ⟨⟨gapEnd, gapGroups⟩, hgap, hin⟩ := mem_runs_append.1 h
  obtain ⟨margin, more, rfl, hne, hmargin, hgapEnd⟩ := between_of_mem_blanks1 hgap
  obtain rfl : gapEnd = Place.between (front ++ margin) more := hgapEnd
  obtain ⟨⟨stop, stopGroups⟩, hstop, hedge⟩ := mem_runs_append.1 hin
  obtain ⟨hmore, hstop⟩ := place_of_mem_literal hstop
  obtain ⟨hstopEdge, -⟩ := mem_runs_wordEdge.1 hedge
  have hstopEdge : stop.atWordEdge = true := hstopEdge
  have hword : (front ++ margin ++ "in".toList).getLast?.any isWordChar = true := by
    rw [List.getLast?_append]
    rfl
  have hnext : stop.rest.head?.any isWordChar = false := by
    rw [show stop = _ from hstop] at hstopEdge
    exact head?_of_wordEdge hword hstopEdge
  have hlast := getLast?_append_of_ne_nil hmargin hne front
  have hmore : more = "in".toList ++ stop.rest := hmore
  refine ⟨margin, stop.rest, by rw [← hmore], hne, hmargin, isName_of_all rfl rfl rfl, hlast,
    stop.rest, ?_, hnext⟩
  rw [hmore, List.append_assoc]

theorem loop_of_matchAt? {front back : List Char} {m : Match}
    (hm : forPattern.matchAt? (Place.between front back) = some m) :
    ∃ targets span, IsLoop (front ++ back) front targets ∧ m.group? 1 = some span ∧
      front.length < span.start.offset := by
  obtain ⟨start, stop, groups, hstart, hbody, hbehind, hgroup⟩ :=
    parts_of_matchAt? runs_forPattern rfl rfl rfl hm
  have hword : IsName "for".toList := isName_of_all rfl rfl rfl
  obtain ⟨hname, gap, rest, hback, -, hgap, hplace⟩ := nameAt_of_mem_word hword hstart
  -- what is remembered begins like a name
  have hover : (one isNameStart ++ few isTargetChar).Over (isTargetChar · = true) :=
    ⟨fun _ hc => isTargetChar_of_isNameStart hc, fun _ hc => hc⟩
  rw [hplace] at hbody
  obtain ⟨body, behind, rfl, hstop, hchars⟩ := between_of_mem_runs hover hbody
  obtain ⟨c, others, rfl, hc⟩ := exists_cons_of_mem_runs hbody hstop
  rw [show stop = _ from hstop] at hbehind
  obtain ⟨margin, more, rfl, hne, hmargin, hin⟩ := in_of_mem_runs hbehind
  refine ⟨gap ++ (c :: others ++ margin), _, ⟨hname, ?_, gap, c :: others, margin, rfl, hgap,
    hmargin, hne, hc, hchars⟩, hgroup, ?_⟩
  · rw [hback]
    simp only [List.append_assoc, List.cons_append] at hin ⊢
    exact hin
  · rw [hplace]
    simp [Place.between]

/-! ## Origins -/

/-- What stands on a masked line where a target may have been taken in front of an equals sign. -/
inductive Written (code : List Char) (depth start : Nat) : Prop
  | annotated {indent back : List Char} : code = indent ++ back →
      (∀ c ∈ indent, isBlank c = true) → LeadsTo ':' (Place.start code) →
      start = indent.length → Written code depth start
  | tuple {span : Span} : depth = 0 → tupleTargets? code = some span → Written code depth start
  | assigned {front back : List Char} : code = front ++ back → OneWord back →
      start = front.length → Written code depth start

/-- What stands on a masked line where a target may have been taken. -/
inductive Origin (code : List Char) (depth start : Nat) : Prop
  | written : Written code depth start → Origin code depth start
  | loop {front targets : List Char} : IsLoop code front targets → front.length < start →
      Origin code depth start
  | word {word : String} {front : List Char} : word = "as" ∨ word = "lambda" →
      NameAt code front word.toList → front.length < start → Origin code depth start

/-- The targets in front of equals signs. -/
def assigned (code : List Char) (depth : Nat) : List Assignment :=
  (assignmentPattern.findAll code).foldl
    (addAssignment code depth (addLineTargets code depth).2) (addLineTargets code depth).1

theorem assignments_eq (code : List Char) (depth : Nat) :
    assignments code depth =
      (lambdaPattern.findAll code).foldl addLambda ((asPattern.findAll code).foldl addGroupName
        ((forPattern.findAll code).foldl addGroupNames (assigned code depth))) := rfl

theorem mem_addTarget {found : List Assignment} {name : List Char} {start : Nat}
    {kind : AssignKind} {a : Assignment} (h : a ∈ addTarget found name start kind) :
    a ∈ found ∨ a.start = start := by
  unfold addTarget at h
  split at h
  · exact Or.inl h
  · rcases List.mem_append.1 h with h | h
    · exact Or.inl h
    · rw [List.mem_singleton.1 h]
      exact Or.inr rfl

/-- What passes over matches have added was there before or is of a kind. -/
theorem mem_foldl_cases {β : Type} {P : Assignment → Prop} {bs : List β}
    {f : List Assignment → β → List Assignment}
    (h : ∀ found, ∀ b ∈ bs, ∀ a ∈ f found b, a ∈ found ∨ P a) {found : List Assignment}
    {a : Assignment} (ha : a ∈ bs.foldl f found) : a ∈ found ∨ P a := by
  induction bs generalizing found with
  | nil => exact Or.inl ha
  | cons b bs ih =>
      have hrest : ∀ found, ∀ c ∈ bs, ∀ a ∈ f found c, a ∈ found ∨ P a :=
        fun found c hc => h found c (List.mem_cons_of_mem b hc)
      rcases ih hrest ha with ha | ha
      · exact h found b List.mem_cons_self a ha
      · exact Or.inr ha

theorem mem_addNames {found : List Assignment} {span : Span} {a : Assignment}
    (h : a ∈ addNames found span) : a ∈ found ∨ span.start.offset ≤ a.start := by
  unfold addNames at h
  refine mem_foldl_cases (P := fun a => span.start.offset ≤ a.start) ?_ h
  intro found m _ a ha
  refine (mem_addTarget ha).imp id ?_
  intro hstart
  omega

theorem mem_addGroupNames {found : List Assignment} {m : Match} {span : Span} {a : Assignment}
    (hgroup : m.group? 1 = some span) (h : a ∈ addGroupNames found m) :
    a ∈ found ∨ span.start.offset ≤ a.start := by
  rw [addGroupNames, hgroup] at h
  exact mem_addNames h

theorem mem_addGroupName {found : List Assignment} {m : Match} {span : Span} {a : Assignment}
    (hgroup : m.group? 1 = some span) (h : a ∈ addGroupName found m) :
    a ∈ found ∨ span.start.offset ≤ a.start := by
  rw [addGroupName, hgroup] at h
  refine (mem_addTarget h).imp id ?_
  intro hstart
  rw [hstart]

theorem mem_addLambda {found : List Assignment} {m : Match} {span : Span} {a : Assignment}
    (hgroup : m.group? 1 = some span) (h : a ∈ addLambda found m) :
    a ∈ found ∨ span.start.offset ≤ a.start := by
  rw [addLambda, hgroup] at h
  refine mem_foldl_cases (P := fun a => span.start.offset ≤ a.start) ?_ h
  intro found m _ a ha
  unfold addParameter at ha
  split at ha
  · exact Or.inl ha
  · refine (mem_addTarget ha).imp id ?_
    intro hstart
    omega

theorem mem_addAssignment {code : List Char} {depth scanFrom : Nat} {found : List Assignment}
    {m : Match} {span : Span} {a : Assignment} (hgroup : m.group? 1 = some span)
    (h : a ∈ addAssignment code depth scanFrom found m) :
    a ∈ found ∨ a.start = span.start.offset := by
  rw [addAssignment, hgroup] at h
  dsimp only at h
  split at h
  · exact Or.inl h
  · exact mem_addTarget h

theorem annotated_of_target? {code : List Char} {target : Span} {stop : Nat}
    (h : annotatedTarget? code = some (target, stop)) :
    LeadsTo ':' (Place.start code) ∧ ∃ indent back, code = indent ++ back ∧
      (∀ c ∈ indent, isBlank c = true) ∧ target.start.offset = indent.length := by
  unfold annotatedTarget? at h
  split at h
  · cases h
  · rename_i m hm
    have hleads := anchored_annotatedPattern.requires_of_find? requires_annotatedPattern hm
    refine ⟨hleads, ?_⟩
    rw [anchored_annotatedPattern.find?_eq] at hm
    obtain ⟨start, last, groups, hstart, -, -, hgroup⟩ :=
      parts_of_matchAt? runs_annotatedPattern rfl rfl rfl hm
    rw [hgroup] at h
    dsimp only at h
    split at h
    · cases h
    · obtain ⟨rfl, -⟩ := Prod.mk.inj (Option.some.inj h)
      have hover : (textStart ++ blanks).Over (isBlank · = true) := ⟨trivial, fun _ hc => hc⟩
      have hrun : (start, []) ∈ (textStart ++ blanks).runs (Place.between [] code, []) := hstart
      obtain ⟨indent, back, hcode, hplace, hindent⟩ := between_of_mem_runs hover hrun
      refine ⟨indent, back, hcode, hindent, ?_⟩
      rw [show start = _ from hplace]
      rfl

theorem written_of_mem_addLineTargets {code : List Char} {depth : Nat} {a : Assignment}
    (h : a ∈ (addLineTargets code depth).1) : Written code depth a.start := by
  unfold addLineTargets at h
  split at h
  · rename_i hdepth
    cases htuple : tupleTargets? code with
    | some span => exact .tuple hdepth htuple
    | none =>
        rw [htuple] at h
        cases htarget : annotatedTarget? code with
        | none =>
            rw [htarget] at h
            cases h
        | some found =>
            obtain ⟨target, stop⟩ := found
            rw [htarget] at h
            obtain ⟨hleads, indent, back, hcode, hindent, hstart⟩ := annotated_of_target? htarget
            rcases mem_addTarget h with h | h
            · cases h
            · exact .annotated hcode hindent hleads (h.trans hstart)
  · cases h

theorem exists_matchAt?_of_mem_findAll {code : List Char} {pattern : Pattern} {m : Match}
    (h : m ∈ pattern.findAll code) :
    ∃ front back, code = front ++ back ∧
      pattern.matchAt? (Place.between front back) = some m := by
  obtain ⟨front, back, hcode, -, hmatch⟩ := matchAt?_of_mem_findAll h
  exact ⟨front, back, hcode, hmatch⟩

theorem written_of_mem {code : List Char} {depth : Nat} {a : Assignment}
    (h : a ∈ assigned code depth) : Written code depth a.start := by
  have hpass : ∀ found, ∀ m ∈ assignmentPattern.findAll code,
      ∀ b ∈ addAssignment code depth (addLineTargets code depth).2 found m,
        b ∈ found ∨ Written code depth b.start := by
    intro found m hm b hb
    obtain ⟨front, back, hcode, hmatch⟩ := exists_matchAt?_of_mem_findAll hm
    obtain ⟨hword, stop, hgroup⟩ := oneWord_of_assignment hmatch
    exact (mem_addAssignment hgroup hb).imp id (fun hstart => .assigned hcode hword hstart)
  rcases mem_foldl_cases hpass h with h | h
  · exact written_of_mem_addLineTargets h
  · exact h

/-- **Where a target comes from**: what stands on the line at a place that a target was taken
from. -/
theorem origin_of_mem {code : List Char} {depth : Nat} {a : Assignment}
    (h : a ∈ assignments code depth) : Origin code depth a.start := by
  have hloops : ∀ found, ∀ m ∈ forPattern.findAll code, ∀ b ∈ addGroupNames found m,
      b ∈ found ∨ Origin code depth b.start := by
    intro found m hm b hb
    obtain ⟨front, back, hcode, hmatch⟩ := exists_matchAt?_of_mem_findAll hm
    obtain ⟨targets, span, hloop, hgroup, hstart⟩ := loop_of_matchAt? hmatch
    rw [← hcode] at hloop
    exact (mem_addGroupNames hgroup hb).imp id (fun hle => .loop hloop (hstart.trans_le hle))
  have hclauses : ∀ found, ∀ m ∈ asPattern.findAll code, ∀ b ∈ addGroupName found m,
      b ∈ found ∨ Origin code depth b.start := by
    intro found m hm b hb
    obtain ⟨front, back, hcode, hmatch⟩ := exists_matchAt?_of_mem_findAll hm
    obtain ⟨hname, span, hgroup, hstart⟩ := as_of_matchAt? hmatch
    rw [← hcode] at hname
    exact (mem_addGroupName hgroup hb).imp id
      (fun hle => .word (Or.inl rfl) hname (hstart.trans_le hle))
  have hlambdas : ∀ found, ∀ m ∈ lambdaPattern.findAll code, ∀ b ∈ addLambda found m,
      b ∈ found ∨ Origin code depth b.start := by
    intro found m hm b hb
    obtain ⟨front, back, hcode, hmatch⟩ := exists_matchAt?_of_mem_findAll hm
    obtain ⟨hname, span, hgroup, hstart⟩ := lambda_of_matchAt? hmatch
    rw [← hcode] at hname
    exact (mem_addLambda hgroup hb).imp id
      (fun hle => .word (Or.inr rfl) hname (hstart.trans_le hle))
  -- the passes from the last to the first
  rw [assignments_eq] at h
  rcases mem_foldl_cases hlambdas h with h | h
  · rcases mem_foldl_cases hclauses h with h | h
    · rcases mem_foldl_cases hloops h with h | h
      · exact .written (written_of_mem h)
      · exact h
    · exact h
  · exact h

end CodeSurvey.Python
