/-
# Names bound together

Several names may be bound by one assignment or one loop, in many spellings.  The scan reads two of
them: bare lists in front of an equals sign, and lists that begin with a name in a loop.  The names
of those are declared; of the other spellings names are lost, and what the statement binds may be
reported as never bound (`targets_of_binding`).
-/
import CodeSurvey.Proofs.Python.LoopTargets
import CodeSurvey.Proofs.Python.Uninitialized
import CodeSurvey.Proofs.Python.Uses

namespace CodeSurvey.Python

open Text Pattern

/-- A plain target is declared, wherever the scan reads its line, and never reported. -/
theorem declared_of_plain {lines : List Line} {code : List Char} {depth : Nat}
    (hcode : CodeLine lines code depth) {front name : List Char} (hname : NameAt code front name)
    (h : ⟨String.ofList name, front.length, .plain⟩ ∈ assignments code depth) :
    String.ofList name ∈ (analyzeLines lines).declaredVars ∧
      String.ofList name ∉ (analyzeLines lines).uninitializedVars := by
  obtain ⟨above, text, below, rfl, hreads, rfl, rfl⟩ := hcode
  have hrole := ScanState.role_of_readsCode hreads hname.hasContent
  have hdeclared : String.ofList name ∈ (analyzeLines (above ++ text :: below)).declaredVars := by
    refine mem_declaredVars_iff.2 ⟨_, mem_roles_iff.2 ⟨above, text, below, rfl, rfl⟩, ?_⟩
    show _ ∈ ((stateBehind above).role text).declaredVars
    rw [hrole]
    exact List.mem_map.2 ⟨_, List.mem_filter.2 ⟨h, rfl⟩, rfl⟩
  refine ⟨hdeclared, ?_⟩
  intro hmem
  rw [uninitializedVars_analyzeLines, List.mem_eraseDups] at hmem
  have hunbound := (List.mem_filter.1 hmem).2
  rw [isUnbound, decide_eq_false (not_not_intro hdeclared)] at hunbound
  cases hunbound

/-- **The targets of a binding.**  In front of an equals sign the names of a bare list are all plain
targets, and of any other list each name is lost that another one follows.  Between `for` and `in`
the names of a list that begins with one, has only names, commas, blanks and parentheses, and ends
in a blank are all plain targets; of a list that begins otherwise, has other characters or has no
blank in front of its only `in`, every name is lost.  A plain target is declared and not reported,
wherever its line is read. -/
theorem targets_of_binding {text value : List Char} (h : IsTargetList text)
    (hvalue : value.head? ≠ some '=') (loop : LoopHeader) (depth : Nat) :
    ((IsBareList text → AllPlain (text ++ '=' :: value) 0 [] text) ∧
      (¬IsBareList text → ∀ front name front' name', NameAt text front name →
        NameAt text front' name' → front.length < front'.length →
          NoTargetAt (text ++ '=' :: value) 0 front.length)) ∧
    ((IsLoopList loop.targets → loop.targets.getLast?.any isBlank = true →
        AllPlain loop.text depth loop.before loop.targets) ∧
      (loop.IsLost → ∀ front name, NameAt loop.targets front name →
        NoTargetAt loop.text depth (loop.before ++ front).length)) ∧
    ∀ lines code depth front name, CodeLine lines code depth → NameAt code front name →
      ⟨String.ofList name, front.length, .plain⟩ ∈ assignments code depth →
        String.ofList name ∈ (analyzeLines lines).declaredVars ∧
          String.ofList name ∉ (analyzeLines lines).uninitializedVars := by
  refine ⟨⟨?_, ?_⟩, ⟨?_, ?_⟩, ?_⟩
  · intro hbare
    exact allPlain_of_isBareList h hbare hvalue
  · intro hbare front name front' name' hname hnext hlt
    exact noTargetAt_of_not_isBareList h hbare hname hnext hlt
  · intro hlist hlast
    exact loop.allPlain_of_isLoopList hlist hlast depth
  · intro hlost front name hname
    exact loop.noTargetAt_of_isLost hlost depth hname
  · intro lines code depth front name hcode hname hplain
    exact declared_of_plain hcode hname hplain

theorem isTargetList_of_all {text : List Char} (hchars : text.all isListChar = true)
    (hnames : (namePattern.findAll text).all (fun m => !isKeyword (String.ofList m.text)) = true)
    (hcomma : (text.dropWhile isBlank).head? ≠ some ',') : IsTargetList text := by
  refine ⟨List.all_eq_true.1 hchars, ?_, hcomma⟩
  intro front name hname
  obtain ⟨back, htext, hback⟩ := hname.ends
  have hmem := mem_findAll_namePattern.2 ⟨front, name, back, htext, hname, hback, rfl⟩
  have hnot := List.all_eq_true.1 hnames _ hmem
  rw [text_nameMatch, Bool.not_eq_true'] at hnot
  exact hnot

def nestedLoop : LoopHeader where
  lead := []
  targets := " a, (b, c) ".toList
  rest := " pairs:".toList
  isLoopLead := .plain (List.forall_mem_nil _)
  isTargetList := isTargetList_of_all (by decide) (by decide) (by decide)
  targets_ne_nil := List.cons_ne_nil _ _
  targets_head := by decide
  targets_last := by decide
  rest_head := by decide

def bracketLoop : LoopHeader where
  lead := []
  targets := " (a, b) ".toList
  rest := " pairs:".toList
  isLoopLead := .plain (List.forall_mem_nil _)
  isTargetList := isTargetList_of_all (by decide) (by decide) (by decide)
  targets_ne_nil := List.cons_ne_nil _ _
  targets_head := by decide
  targets_last := by decide
  rest_head := by decide

theorem isName_letter {letter : Char} (h : isNameStart letter = true) : IsName [letter] :=
  ⟨letter, [], rfl, h, List.forall_mem_nil _⟩

/-- A pair and a nested list are read; lists in brackets are not. -/
theorem plain_pair :
    (⟨"a", 0, .plain⟩ : Assignment) ∈ assignments "a, b = pair".toList 0 ∧
      "b" ∈ (analyzeLines ["a, b = pair".toList]).declaredVars ∧
      "b" ∉ (analyzeLines ["a, b = pair".toList]).uninitializedVars ∧
      (⟨"c", 11, .plain⟩ : Assignment) ∈ assignments "for a, (b, c) in pairs:".toList 0 ∧
      NoTargetAt "(a, b) = pair".toList 0 1 ∧ NoTargetAt "for (a, b) in pairs:".toList 0 5 := by
  have ha : IsName ['a'] := isName_letter rfl
  have hb : IsName ['b'] := isName_letter rfl
  have hc : IsName ['c'] := isName_letter rfl
  have hvalue : " pair".toList.head? ≠ some '=' := by decide
  -- what is read
  have hpair : IsTargetList "a, b ".toList :=
    isTargetList_of_all (by decide) (by decide) (by decide)
  have hbare : IsBareList "a, b ".toList :=
    .intro (List.forall_mem_nil _) ha
      (.cons (List.forall_mem_nil _) (List.forall_mem_singleton.2 rfl) hb .nil)
      (List.cons_ne_nil _ _) (List.forall_mem_singleton.2 rfl)
  obtain ⟨⟨hread, -⟩, ⟨hloop, -⟩, hdeclared⟩ := targets_of_binding hpair hvalue nestedLoop 0
  have hfirst := hread hbare [] ['a'] ⟨ha, rfl, ", b ".toList, rfl, rfl⟩
  have hsecond := hread hbare "a, ".toList ['b'] ⟨hb, rfl, " ".toList, rfl, rfl⟩
  have hcode : CodeLine ["a, b = pair".toList] "a, b = pair".toList 0 :=
    ⟨[], _, [], rfl, ⟨rfl, rfl, rfl⟩, by decide, rfl⟩
  have hreported := hdeclared _ _ 0 "a, ".toList ['b'] hcode
    ⟨hb, rfl, " = pair".toList, rfl, rfl⟩ hsecond
  have hnested := hloop ⟨rfl, List.all_eq_true.1 rfl⟩ rfl " a, (b, ".toList ['c']
    ⟨hc, rfl, ") ".toList, rfl, rfl⟩
  -- what is lost
  have hbracket : IsTargetList "(a, b) ".toList :=
    isTargetList_of_all (by decide) (by decide) (by decide)
  obtain ⟨⟨hall, hnone⟩, ⟨-, hnoneLoop⟩, -⟩ := targets_of_binding hbracket hvalue bracketLoop 0
  have hopened : NameAt "(a, b) ".toList ['('] ['a'] := ⟨ha, rfl, ", b) ".toList, rfl, rfl⟩
  have hclosed : NameAt "(a, b) ".toList "(a, ".toList ['b'] := ⟨hb, rfl, ") ".toList, rfl, rfl⟩
  have hnot : ¬IsBareList "(a, b) ".toList :=
    fun hbare => absurd (hall hbare ['('] ['a'] hopened) (by decide)
  have hlost := hnone hnot ['('] ['a'] "(a, ".toList ['b'] hopened hclosed (by decide)
  have hlostLoop := hnoneLoop (Or.inl (fun hlist => absurd hlist.begins (by decide)))
    " (".toList ['a'] ⟨ha, rfl, ", b) ".toList, rfl, rfl⟩
  exact ⟨hfirst, hreported.1, hreported.2, hnested, hlost, hlostLoop⟩

/-- A function that takes a pair apart with parentheses. -/
def bracketFunction : String := "def f(pair):
    (a, b) = pair
    return a + b"

/-- Brackets, a star and a comma too many lose names, and what the function binds is reported. -/
theorem lost_bracketTargets :
    assignments "(a, b) = pair".toList 0 = [] ∧
      assignments "[a, b] = pair".toList 0 = [] ∧
      (assignments "*a, b = pair".toList 0).map (·.name) = ["b"] ∧
      assignments "a, (b, c) = pair".toList 0 = [] ∧
      assignments "for (a, b) in pairs:".toList 0 = [] ∧
      assignments "for *a, b in pairs:".toList 0 = [] ∧
      (analyze bracketFunction).uninitializedVars = ["a", "b"] := by
  decide +kernel

end CodeSurvey.Python
