/-
# Names that are read and never bound

A function notes a read only if it has not written the name by then.  The order in which a function
reads and writes shows in no finding, though: whatever it writes is declared or bound in the source,
and such a name is dropped in the end (`filter_usage`).  What is reported are the names that the
bodies read and the source binds nowhere (`uninitializedVars_eq`).
-/
import CodeSurvey.Proofs.NameSet
import CodeSurvey.Proofs.Python.Names
import CodeSurvey.Proofs.Python.Outline
import CodeSurvey.Scan.Python

namespace CodeSurvey.Python

open Text

/-! ## What the bodies read -/

/-- The names that a body reads, line after line. -/
def Function.reads (f : Function) : List String := f.body.flatMap Item.reads

/-- The names that the bodies of functions read, line after line. -/
def bodyReads (steps : List Step) : List String :=
  (steps.filterMap Step.function?).flatMap Function.reads

def depthBehind (items : List Item) : Nat :=
  items.foldl (fun depth item => item.role.depthAfter depth item.text) 0

theorem scan?_bodyItems {strings : StringState} {depth number size : Nat} {below : List Line}
    {above under : List Item} {item : Item} {scan : LineScan}
    (h : bodyItems strings depth number size below = above ++ item :: under)
    (hscan : item.scan? = some scan) :
    scan = scanCode (maskLine .hash item.text)
      (above.foldl (fun depth item => item.role.depthAfter depth item.text) depth) := by
  induction above generalizing strings depth number size below with
  | nil =>
      cases size with
      | zero => cases h
      | succ size =>
          cases below with
          | nil => cases h
          | cons text below =>
              rw [bodyItems] at h
              obtain ⟨rfl, -⟩ := List.cons.inj h
              unfold Item.scan? at hscan
              dsimp only at hscan
              split at hscan
              · rename_i hrole
                obtain rfl := Option.some.inj hscan
                split at hrole
                · cases hrole
                · split at hrole
                  · exact eq_scanCode_of_roleAt hrole
                  · cases hrole
              · cases hscan
  | cons first above ih =>
      cases size with
      | zero => cases h
      | succ size =>
          cases below with
          | nil => cases h
          | cons text below =>
              rw [bodyItems] at h
              obtain ⟨rfl, hrest⟩ := List.cons.inj h
              exact ih hrest

/-- **What a line of a body reads**: if the line is code, the names that stand on it to be read, in
their order, and otherwise nothing. -/
theorem reads_of_body {lines : List Line} {f : Function} {above under : List Item} {item : Item}
    (hf : .function f ∈ outline lines) (hbody : f.body = above ++ item :: under) :
    (item.scan? = none ∧ item.reads = []) ∨
      IsReading (maskLine .hash item.text) (depthBehind above) item.reads := by
  rw [Item.reads]
  cases hscan : item.scan? with
  | none => exact Or.inl ⟨rfl, rfl⟩
  | some scan =>
      obtain ⟨number, header, name, parameters, below, rfl⟩ :=
        (outlined_outline lines).exists_functionAt hf
      rw [scan?_bodyItems hbody hscan]
      exact Or.inr (isReading_scanCode _ _)

/-! ## The usage of a function -/

/-- A test that no name written so far passes. -/
def Usage.Drops (p : String → Bool) (usage : Usage) : Prop :=
  ∀ name ∈ usage.writes, p name = false

theorem mem_writes_add {usage : Usage} {item : Item} {name : String}
    (h : name ∈ (usage.add item).writes) :
    name ∈ usage.writes ∨ name ∈ item.declaredVars ∨ name ∈ item.declaredFunctions := by
  obtain ⟨number, text, role, below⟩ := item
  cases role with
  | quoted | idle | imports names => exact Or.inl h
  | definition defined parameters =>
      rcases NameSet.mem_insertAll.1 h with h | h
      · rcases NameSet.mem_insert.1 h with h | rfl
        · exact Or.inl h
        · exact Or.inr (Or.inr List.mem_cons_self)
      · exact Or.inr (Or.inl h)
  | code className scan =>
      rcases NameSet.mem_insertAll.1 h with h | h
      · exact Or.inl h
      · exact Or.inr (Or.inl h)

theorem mem_boundNames_of_declared {item : Item} {name : String}
    (h : name ∈ item.declaredFunctions) : name ∈ item.boundNames := by
  obtain ⟨number, text, role, below⟩ := item
  cases role with
  | quoted | idle | imports names => cases h
  | definition defined parameters => exact h
  | code className scan => cases h

/-- Under a test that drops the names written so far and the predefined ones, an item adds all that
it reads. -/
theorem filter_add {p : String → Bool} (hbuiltin : ∀ name, isBuiltin name = true → p name = false)
    {usage : Usage} (h : usage.Drops p) (item : Item) :
    (usage.add item).openReads.filter p =
      (usage.openReads.filter p).insertAll (item.reads.filter p) := by
  obtain ⟨number, text, role, below⟩ := item
  cases role with
  | quoted | idle | imports names => rfl
  | definition defined parameters => rfl
  | code className scan =>
      have hfresh : (scan.reads.filter
          (fun name => name ∉ usage.writes && !isBuiltin name)).filter p = scan.reads.filter p := by
        rw [List.filter_filter]
        refine List.filter_congr ?_
        intro name _
        cases hp : p name with
        | false => rfl
        | true =>
            have hunwritten : name ∉ usage.writes := by
              intro hmem
              rw [h name hmem] at hp
              cases hp
            have hown : isBuiltin name = false := by
              rw [← Bool.not_eq_true]
              intro hmem
              rw [hbuiltin name hmem] at hp
              cases hp
            rw [hown, decide_eq_true hunwritten]
            rfl
      have hstep : (usage.openReads.insertAll
          (scan.reads.filter (fun name => name ∉ usage.writes && !isBuiltin name))).filter p =
            (usage.openReads.filter p).insertAll (scan.reads.filter p) := by
        rw [NameSet.filter_insertAll, hfresh]
      exact hstep

theorem filter_foldl_add {p : String → Bool}
    (hbuiltin : ∀ name, isBuiltin name = true → p name = false) {items : List Item}
    (hitems : ∀ item ∈ items, ∀ name, name ∈ item.declaredVars ∨ name ∈ item.boundNames →
      p name = false) {usage : Usage} (h : usage.Drops p) :
    (items.foldl Usage.add usage).openReads.filter p =
      (usage.openReads.filter p).insertAll ((items.flatMap Item.reads).filter p) := by
  induction items generalizing usage with
  | nil => rfl
  | cons item items ih =>
      obtain ⟨hitem, hrest⟩ := List.forall_mem_cons.1 hitems
      have hnext : (usage.add item).Drops p := by
        intro name hname
        rcases mem_writes_add hname with hwritten | hown
        · exact h name hwritten
        · exact hitem name (hown.imp id mem_boundNames_of_declared)
      rw [List.foldl_cons, ih hrest hnext, filter_add hbuiltin h, List.flatMap_cons,
        List.filter_append, NameSet.insertAll_append]

def Step.Names (step : Step) (name : String) : Prop :=
  name ∈ step.declaredVars ∨ name ∈ step.boundNames

/-- **The order of reads and writes does not matter**: under a test that drops what the function
declares and binds, and what is predefined, the open reads of a function are all its reads. -/
theorem filter_usage {p : String → Bool}
    (hbuiltin : ∀ name, isBuiltin name = true → p name = false) {f : Function}
    (hf : ∀ name, (Step.function f).Names name → p name = false) :
    f.usage.openReads.filter p = NameSet.ofList (f.reads.filter p) := by
  have hbegin : Usage.Drops p ⟨NameSet.ofList f.parameters, ∅⟩ := by
    intro name hname
    refine hf name (Or.inl (List.mem_append.2 (Or.inl ?_)))
    exact NameSet.mem_ofList.1 hname
  refine filter_foldl_add hbuiltin ?_ hbegin
  intro item hitem name hname
  rcases hname with hdeclared | hbound
  · refine hf name (Or.inl (List.mem_append.2 (Or.inr ?_)))
    exact List.mem_flatMap.2 ⟨item, hitem, hdeclared⟩
  · refine hf name (Or.inr (List.mem_cons.2 (Or.inr ?_)))
    exact List.mem_flatMap.2 ⟨item, hitem, hbound⟩

theorem filter_openReads {p : String → Bool} {functions : List Function}
    (h : ∀ f ∈ functions, f.usage.openReads.filter p = NameSet.ofList (f.reads.filter p)) :
    (NameSet.ofList (functions.flatMap (·.usage.openReads.toList))).filter p =
      NameSet.ofList ((functions.flatMap Function.reads).filter p) := by
  have hgrow : ∀ s : NameSet,
      s.insertAll ((functions.flatMap (·.usage.openReads.toList)).filter p) =
        s.insertAll ((functions.flatMap Function.reads).filter p) := by
    induction functions with
    | nil => exact fun _ => rfl
    | cons f functions ih =>
        intro s
        obtain ⟨hf, hrest⟩ := List.forall_mem_cons.1 h
        have hhead : s.insertAll (f.usage.openReads.toList.filter p) =
            s.insertAll (f.reads.filter p) := by
          rw [← NameSet.toList_filter, hf]
          exact NameSet.insertAll_toList_insertAll s NameSet.empty _
        rw [List.flatMap_cons, List.flatMap_cons, List.filter_append, List.filter_append,
          NameSet.insertAll_append, NameSet.insertAll_append, hhead, ih hrest]
  exact (NameSet.filter_insertAll p NameSet.empty _).trans (hgrow NameSet.empty)

/-! ## What is reported -/

/-- Whether a source binds a name nowhere: no parameter and no target declares it, it is bound by no
header and no import, and it is not predefined. -/
def isUnbound (lines : List Line) (name : String) : Bool :=
  name ∉ (analyzeLines lines).declaredVars && name ∉ (outline lines).flatMap Step.boundNames &&
    !isBuiltin name && name != "self" && name != "cls"

theorem isUnbound_of_isBuiltin {lines : List Line} {name : String} (h : isBuiltin name = true) :
    isUnbound lines name = false := by
  rw [isUnbound, h]
  simp

theorem isUnbound_of_names {lines : List Line} {step : Step} (hstep : step ∈ outline lines)
    {name : String} (h : step.Names name) : isUnbound lines name = false := by
  rcases h with hdeclared | hbound
  · have hmem : name ∈ (analyzeLines lines).declaredVars :=
      NameSet.mem_ofList.2 (List.mem_flatMap.2 ⟨step, hstep, hdeclared⟩)
    rw [isUnbound, decide_eq_false (not_not_intro hmem)]
    rfl
  · have hmem : name ∈ (outline lines).flatMap Step.boundNames :=
      List.mem_flatMap.2 ⟨step, hstep, hbound⟩
    rw [isUnbound, decide_eq_false (not_not_intro hmem), Bool.and_false]
    rfl

theorem uninitializedVars_analyzeLines (lines : List Line) :
    (analyzeLines lines).uninitializedVars =
      ((bodyReads (outline lines)).filter (isUnbound lines)).eraseDups := by
  have hfunctions : ∀ f ∈ (outline lines).filterMap Step.function?,
      f.usage.openReads.filter (isUnbound lines) =
        NameSet.ofList (f.reads.filter (isUnbound lines)) := by
    intro f hf
    obtain ⟨step, hstep, hfunction⟩ := List.mem_filterMap.1 hf
    cases step with
    | line item => cases hfunction
    | function g =>
        obtain rfl := Option.some.inj hfunction
        exact filter_usage (fun _ h => isUnbound_of_isBuiltin h)
          (fun _ h => isUnbound_of_names hstep h)
  rw [bodyReads, ← NameSet.toList_ofList, ← filter_openReads hfunctions, NameSet.toList_filter]
  refine List.filter_congr ?_
  intro name _
  have hbound : decide (name ∉ NameSet.ofList ((outline lines).flatMap Step.boundNames)) =
      decide (name ∉ (outline lines).flatMap Step.boundNames) :=
    decide_eq_decide.2 (not_congr NameSet.mem_ofList)
  rw [isUnbound, ← hbound]
  rfl

/-- **What is read and never bound**, in the order of the first reads and without repeats: the
names that stand to be read on the code lines of function bodies and that the source binds nowhere,
wherever the bodies write what. -/
theorem uninitializedVars_eq (source : String) :
    (analyze source).uninitializedVars =
        ((bodyReads (outline (linesOf source))).filter (isUnbound (linesOf source))).eraseDups ∧
      ∀ f above item under, .function f ∈ outline (linesOf source) →
        f.body = above ++ item :: under →
          (item.scan? = none ∧ item.reads = []) ∨
            IsReading (maskLine .hash item.text) (depthBehind above) item.reads := by
  refine ⟨uninitializedVars_analyzeLines (linesOf source), ?_⟩
  intro f above item under hf hbody
  exact reads_of_body hf hbody

/-- A body that reads a name before it writes it, and a name that it never writes. -/
def readBeforeWritten : String := "def f():\n    print(total, missing)\n    total = 1"

/-- Only the name that is never written is reported. -/
theorem reported_readBeforeWritten :
    (analyze readBeforeWritten).uninitializedVars = ["missing"] := by
  rw [(uninitializedVars_eq readBeforeWritten).1]
  decide

end CodeSurvey.Python
