/-
# Targets stand where names do

Six patterns look for targets, and the group of each of them cuts no word (`CutsOut`), so a name in
a group is a name of the whole line.  A target is noted where no other one is, and if it is no
keyword; so whatever passes over the line have added, each target is an occurrence of a name, and no
two of them are the same one (`noted_assignments`).  Hence the scan, which goes through the
occurrences of names, meets every target once, and it can tell the reads by the places of the
targets (`targets_are_occurrences`).
-/
import Mathlib.Data.List.Nodup
import CodeSurvey.Proofs.Pattern.Cuts
import CodeSurvey.Proofs.Python.TargetLists

namespace CodeSurvey.Python

open Text Pattern

/-! ## The six patterns -/

theorem requires_blanks_append {b : Pattern} (hb : Requires NoWordAhead b) :
    Requires NoWordAhead (blanks ++ b) := by
  have hover : blanks.Over (isBlank · = true) := fun _ hc => hc
  exact hb.behind hover (fun _ hc => not_isWordChar_of_isBlank hc)

theorem cutsOut_annotatedPattern :
    CutsOut annotatedPattern (textStart ++ blanks) identifier
      (blanks ++ (char ':' ++ (many (· != '=') ++ char '='))) where
  runs_eq := runs_annotatedPattern
  groupFree := ⟨rfl, rfl, rfl⟩
  starts := ensures_indent
  stops := (requires_blanks_append ((requires_char rfl).append _)).betweenWords

theorem cutsOut_tuplePattern :
    CutsOut tuplePattern (textStart ++ blanks) (identifier ++ rounds1 follower)
      (blanks ++ char '=') where
  runs_eq := runs_tuplePattern
  groupFree := ⟨rfl, rfl, rfl⟩
  starts := ensures_indent
  stops := (requires_blanks_append (requires_char rfl)).betweenWords

theorem cutsOut_assignmentPattern :
    CutsOut assignmentPattern wordEdge identifier
      (blanks ++ (optional (either (oneOf ["//", "**", ">>", "<<"]) (one isUpdateOperator)) ++
        char '=')) where
  runs_eq := runs_assignmentPattern
  groupFree := ⟨rfl, rfl, rfl⟩
  starts := ensures_wordEdge
  stops := by
    have hequals : Requires NoWordAhead (char '=') := requires_char rfl
    have hoperator := hequals.behind over_operator (fun _ hc => hc.1)
    exact (requires_blanks_append hoperator).betweenWords

theorem cutsOut_forPattern :
    CutsOut forPattern (wordEdge ++ (literal "for" ++ blanks1))
      (one isNameStart ++ few isTargetChar) (blanks1 ++ (literal "in" ++ wordEdge)) where
  runs_eq := runs_forPattern
  groupFree := ⟨rfl, rfl, rfl⟩
  starts := (ensures_blanks1.append _).append _
  stops := by
    have hblank := requires_one (fun _ hc => not_isWordChar_of_isBlank hc)
    exact ((hblank.append _).append _).betweenWords

theorem cutsOut_asPattern :
    CutsOut asPattern (wordEdge ++ (literal "as" ++ blanks1)) identifier wordEdge where
  runs_eq := runs_asPattern
  groupFree := ⟨rfl, rfl, rfl⟩
  starts := (ensures_blanks1.append _).append _
  stops := requires_wordEdge

theorem cutsOut_lambdaPattern :
    CutsOut lambdaPattern (wordEdge ++ (literal "lambda" ++ wordEdge)) (many (· != ':'))
      (char ':') where
  runs_eq := runs_lambdaPattern
  groupFree := ⟨rfl, rfl, rfl⟩
  starts := (ensures_wordEdge.append _).append _
  stops := (requires_char rfl).betweenWords

/-! ## Names of a span -/

section Spans

variable {code before behind front name : List Char} {span : Span}

/-- **A name of a span that cuts no word is one of the line.** -/
theorem nameAt_of_cutOut (h : span.CutOut code before behind)
    (hname : NameAt span.text front name) : NameAt code (before ++ front) name := by
  have hne : span.text ≠ [] := by
    intro hnil
    have hlength := hname.length_lt
    rw [hnil] at hlength
    exact absurd hlength (Nat.not_lt_zero _)
  have hbefore : before.getLast?.any isWordChar = false ∨
      span.text.head?.any isWordChar = false := by
    have hstarts := h.starts
    obtain ⟨c, rest, hc⟩ := List.exists_cons_of_ne_nil hne
    rw [hc] at hstarts ⊢
    exact hstarts
  have hbehind : behind.head?.any isWordChar = false ∨
      span.text.getLast?.any isWordChar = false := by
    have hstops := h.stops.symm
    rw [List.getLast?_append, List.getLast?_eq_some_getLast hne, Option.some_or] at hstops
    rwa [List.getLast?_eq_some_getLast hne]
  rw [h.text_eq]
  exact hname.outer hbefore hbehind

theorem nameAt_of_identifier (h : span.CutOut code before behind)
    (hrun : (span.stop, []) ∈ identifier.runs (span.start, [])) :
    NameAt code before span.text := by
  obtain ⟨word, hword, htakes⟩ := name_of_mem_identifier hrun
  have htext : span.text = word := Span.text_eq htakes
  have hself : NameAt span.text [] span.text := by
    rw [htext]
    exact ⟨hword, rfl, [], (List.append_nil word).symm, rfl⟩
  have hname := nameAt_of_cutOut h hself
  rwa [List.append_nil] at hname

theorem nameAt_of_annotatedTarget? {target : Span} {stop : Nat}
    (h : annotatedTarget? code = some (target, stop)) :
    ∃ before, NameAt code before target.text ∧ target.start.offset = before.length := by
  unfold annotatedTarget? at h
  split at h
  · cases h
  · rename_i m hm
    obtain ⟨span, before, behind, hgroup, hspan, hrun⟩ :=
      cutsOut_annotatedPattern.span_of_find? anchored_annotatedPattern hm
    rw [hgroup] at h
    dsimp only at h
    split at h
    · cases h
    · obtain ⟨rfl, -⟩ := Prod.mk.inj (Option.some.inj h)
      exact ⟨before, nameAt_of_identifier hspan hrun, hspan.offset_eq⟩

theorem cutOut_of_tupleTargets? {targets : Span} (h : tupleTargets? code = some targets) :
    ∃ before behind, targets.CutOut code before behind := by
  unfold tupleTargets? at h
  split at h
  · cases h
  · rename_i m hm
    obtain ⟨span, before, behind, hgroup, hspan, -⟩ :=
      cutsOut_tuplePattern.span_of_find? anchored_tuplePattern hm
    split at h
    · cases h
    · rw [hgroup] at h
      obtain rfl := Option.some.inj h
      exact ⟨before, behind, hspan⟩

end Spans

/-! ## What is noted -/

/-- Every target that is noted is an occurrence of a name that is no keyword, and no two are noted
in one place. -/
structure NotedNames (code : List Char) (found : List Assignment) : Prop where
  apart : found.Pairwise (fun a b => a.start ≠ b.start)
  not_keyword : ∀ a ∈ found, isKeyword a.name = false
  occurs : ∀ a ∈ found, ∃ front name, NameAt code front name ∧ a.start = front.length ∧
    a.name = String.ofList name

namespace NotedNames

variable {code : List Char} {found : List Assignment}

theorem nil : NotedNames code [] :=
  ⟨.nil, List.forall_mem_nil _, List.forall_mem_nil _⟩

theorem addTarget (h : NotedNames code found) {front name : List Char} {start : Nat}
    (hname : NameAt code front name) (hstart : start = front.length) (kind : AssignKind) :
    NotedNames code (addTarget found name start kind) := by
  unfold Python.addTarget
  split
  · exact h
  · rename_i hfresh
    simp only [Bool.or_eq_true, List.any_eq_true, beq_iff_eq, not_or, not_exists, not_and] at hfresh
    obtain ⟨hkeyword, hfree⟩ := hfresh
    refine ⟨?_, ?_, ?_⟩
    · refine List.pairwise_append.2 ⟨h.apart, List.pairwise_singleton _ _, ?_⟩
      intro a ha b hb
      rw [List.mem_singleton.1 hb]
      exact hfree a ha
    · refine List.forall_mem_append.2 ⟨h.not_keyword, List.forall_mem_singleton.2 ?_⟩
      exact Bool.eq_false_iff.2 hkeyword
    · refine List.forall_mem_append.2 ⟨h.occurs, List.forall_mem_singleton.2 ?_⟩
      exact ⟨front, name, hname, hstart, rfl⟩

/-- Passes over matches keep it up if one match does. -/
theorem foldl {β : Type} {bs : List β} {add : List Assignment → β → List Assignment}
    (h : NotedNames code found)
    (hadd : ∀ found, NotedNames code found → ∀ b ∈ bs, NotedNames code (add found b)) :
    NotedNames code (bs.foldl add found) :=
  List.foldlRecOn bs add h (fun found hfound b hb => hadd found hfound b hb)

theorem addTarget_of_cutOut (h : NotedNames code found) {span : Span} {before behind : List Char}
    (hspan : span.CutOut code before behind) {m : Match} (hm : m ∈ namePattern.findAll span.text)
    (kind : AssignKind) :
    NotedNames code (Python.addTarget found m.text (span.start.offset + m.start) kind) := by
  obtain ⟨front, name, back, -, hname, -, rfl⟩ := mem_findAll_namePattern.1 hm
  rw [text_nameMatch, start_nameMatch]
  refine h.addTarget (nameAt_of_cutOut hspan hname) ?_ kind
  rw [hspan.offset_eq, List.length_append]

theorem addNames (h : NotedNames code found) {span : Span} {before behind : List Char}
    (hspan : span.CutOut code before behind) : NotedNames code (addNames found span) :=
  h.foldl (fun _ hfound _ hm => hfound.addTarget_of_cutOut hspan hm .plain)

/-! ### The passes -/

theorem addTupleTargets (h : NotedNames code found) (scanFrom : Nat) :
    NotedNames code (match tupleTargets? code with
      | some targets => (Python.addNames found targets, scanFrom)
      | none => (found, scanFrom)).1 := by
  cases htargets : tupleTargets? code with
  | none => exact h
  | some targets =>
      obtain ⟨before, behind, hspan⟩ := cutOut_of_tupleTargets? htargets
      exact h.addNames hspan

theorem addLineTargets (code : List Char) (depth : Nat) :
    NotedNames code (addLineTargets code depth).1 := by
  unfold Python.addLineTargets
  split
  · cases htarget : annotatedTarget? code with
    | none => exact nil.addTupleTargets 0
    | some found =>
        obtain ⟨target, stop⟩ := found
        obtain ⟨before, hname, hstart⟩ := nameAt_of_annotatedTarget? htarget
        exact (nil.addTarget hname hstart .plain).addTupleTargets stop
  · exact nil

theorem addAssignment (h : NotedNames code found) (depth scanFrom : Nat) {m : Match}
    (hm : m ∈ assignmentPattern.findAll code) :
    NotedNames code (addAssignment code depth scanFrom found m) := by
  obtain ⟨span, before, behind, hgroup, hspan, hrun⟩ :=
    cutsOut_assignmentPattern.span_of_mem_findAll hm
  rw [Python.addAssignment, hgroup]
  dsimp only
  split
  · exact h
  · exact h.addTarget (nameAt_of_identifier hspan hrun) hspan.offset_eq _

theorem addGroupNames (h : NotedNames code found) {m : Match} (hm : m ∈ forPattern.findAll code) :
    NotedNames code (addGroupNames found m) := by
  obtain ⟨span, before, behind, hgroup, hspan, -⟩ := cutsOut_forPattern.span_of_mem_findAll hm
  rw [Python.addGroupNames, hgroup]
  exact h.addNames hspan

theorem addGroupName (h : NotedNames code found) {m : Match} (hm : m ∈ asPattern.findAll code) :
    NotedNames code (addGroupName found m) := by
  obtain ⟨span, before, behind, hgroup, hspan, hrun⟩ := cutsOut_asPattern.span_of_mem_findAll hm
  rw [Python.addGroupName, hgroup]
  exact h.addTarget (nameAt_of_identifier hspan hrun) hspan.offset_eq _

theorem addLambda (h : NotedNames code found) {m : Match} (hm : m ∈ lambdaPattern.findAll code) :
    NotedNames code (addLambda found m) := by
  obtain ⟨span, before, behind, hgroup, hspan, -⟩ := cutsOut_lambdaPattern.span_of_mem_findAll hm
  rw [Python.addLambda, hgroup]
  refine h.foldl (fun found hfound name hname => ?_)
  unfold addParameter
  split
  · exact hfound
  · exact hfound.addTarget_of_cutOut hspan hname .plain

end NotedNames

/-- **What the passes over a line note** are occurrences of names, each of them once. -/
theorem noted_assignments (code : List Char) (depth : Nat) :
    NotedNames code (assignments code depth) := by
  have hassigned : NotedNames code (assigned code depth) :=
    (NotedNames.addLineTargets code depth).foldl (fun _ h _ hm => h.addAssignment _ _ hm)
  have hloops := hassigned.foldl (fun _ h _ hm => h.addGroupNames hm)
  have hclauses := hloops.foldl (fun _ h _ hm => h.addGroupName hm)
  rw [assignments_eq]
  exact hclauses.foldl (fun _ h _ hm => h.addLambda hm)

/-- The annotated name, and a keyword argument in brackets. -/
example : (assignments "n: int = f(k=a.b)".toList 0).map (fun a => (a.name, a.start, a.kind)) =
    [("n", 0, .plain), ("k", 11, .keyword)] := by decide +kernel

/-! ## Targets and occurrences -/

/-- No two occurrences of names begin in one place. -/
theorem eq_of_start_eq {code : List Char} {m other : Match} (hm : m ∈ namePattern.findAll code)
    (hother : other ∈ namePattern.findAll code) (hstart : m.start = other.start) : m = other := by
  have hnodup : ((namePattern.findAll code).map Match.start).Nodup :=
    List.pairwise_map.2 ((pairwise_findAll namePattern code).imp Nat.ne_of_lt)
  exact List.inj_on_of_nodup_map hnodup hm hother hstart

/-- The targets of a masked line are occurrences of names, and the reads of the line are occurrences
that are told by the places of the targets. -/
structure TargetsAreOccurrences (code : List Char) (depth : Nat) : Prop where
  apart : (assignments code depth).Pairwise (fun a b => a.start ≠ b.start)
  not_keyword : ∀ a ∈ assignments code depth, isKeyword a.name = false
  /-- One name of the line begins where the target does, and this is its name. -/
  occurrence : ∀ a ∈ assignments code depth, ∃ m ∈ namePattern.findAll code,
    (m.start = a.start ∧ String.ofList m.text = a.name) ∧
      ∀ other ∈ namePattern.findAll code, other.start = a.start → other = m
  reads : ∃ read : List Match, read.Sublist (namePattern.findAll code) ∧
    (scanCode code depth).reads = read.map (fun m => String.ofList m.text) ∧
      ∀ m ∈ namePattern.findAll code, m ∈ read ↔
        isKeyword (String.ofList m.text) = false ∧ (code.take m.start).getLast? ≠ some '.' ∧
          ¬∃ a ∈ assignments code depth, a.start = m.start ∧ (a.kind = .plain ∨ a.kind = .keyword)

/-- **Every target of a line is one occurrence of a name**, and the reads are the other occurrences
but for keywords, attributes and what is updated. -/
theorem targets_are_occurrences (code : List Char) (depth : Nat) :
    TargetsAreOccurrences code depth := by
  have hnoted := noted_assignments code depth
  constructor
  case apart => exact hnoted.apart
  case not_keyword => exact hnoted.not_keyword
  case occurrence =>
    intro a ha
    obtain ⟨front, name, hname, hstart, htext⟩ := hnoted.occurs a ha
    obtain ⟨back, hcode, hback⟩ := hname.ends
    have hmem : nameMatch front name back ∈ namePattern.findAll code :=
      mem_findAll_namePattern.2 ⟨front, name, back, hcode, hname, hback, rfl⟩
    refine ⟨nameMatch front name back, hmem, ⟨hstart.symm, ?_⟩, ?_⟩
    · rw [text_nameMatch, htext]
    · intro other hother hsame
      exact eq_of_start_eq hother hmem (hsame.trans hstart)
  case reads =>
    refine ⟨_, List.filter_sublist, rfl, ?_⟩
    intro m hm
    rw [List.mem_filter, and_iff_right hm]
    obtain ⟨front, name, back, hcode, hname, -, rfl⟩ := mem_findAll_namePattern.1 hm
    have hfront : code.take front.length = front := by
      rw [hcode, List.take_left]
    rw [isRead_nameMatch back hname, text_nameMatch, start_nameMatch, hfront]
    constructor
    · intro hread
      refine ⟨hread.not_keyword, hread.not_attribute, ?_⟩
      rintro ⟨a, ha, hstart, hkind⟩
      rw [hread.not_target a ha hstart] at hkind
      exact hkind.elim nofun nofun
    · rintro ⟨hkeyword, hattribute, htarget⟩
      refine ⟨hname, hkeyword, hattribute, ?_⟩
      intro a ha hstart
      cases hkind : a.kind with
      | compound => rfl
      | plain => exact absurd ⟨a, ha, hstart, Or.inl hkind⟩ htarget
      | keyword => exact absurd ⟨a, ha, hstart, Or.inr hkind⟩ htarget

end CodeSurvey.Python
