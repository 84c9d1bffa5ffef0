/-
# The tables of names fit together

The names that a source declares, reads, calls and imports are kept in tables of their own, filled
at different places of the scan.  What is reported from one table fits what is reported from the
others (`names_fit_together`): used and unused variables are apart and are both declared, an unused
function is declared and never called, and an import that is not mentioned is noted once, where it
is first, with the line of its last import.  The writes of a function that are never read are unused
variables of the source, but for the functions it holds: whatever a body writes, its items declare
(`mem_writes_usage`).
-/
import CodeSurvey.Proofs.Python.Imports
import CodeSurvey.Proofs.Python.Uninitialized

namespace CodeSurvey.Python

open Text

/-! ## Imports -/

/-- Every identifier in the code of a source. -/
def mentionsIn (lines : List Line) : List String :=
  (itemsIn lines).flatMap Item.mentions

theorem names_unusedImports (lines : List Line) :
    (analyzeLines lines).unusedImports.map (·.name) =
      ((importsIn lines).map (·.name)).eraseDups.filter (· ∉ mentionsIn lines) := by
  rw [← (noted_importsIn lines).names, List.filter_map]
  refine congrArg (List.map _) (List.filter_congr (fun i _ => ?_))
  exact decide_eq_decide.2 (not_congr NameSet.mem_ofList)

/-! ## Writes -/

theorem mem_writes_foldl {items : List Item} {usage : Usage} {name : String}
    (h : name ∈ (items.foldl Usage.add usage).writes) :
    name ∈ usage.writes ∨ name ∈ items.flatMap Item.declaredVars ∨
      name ∈ items.flatMap Item.declaredFunctions := by
  induction items generalizing usage with
  | nil => exact .inl h
  | cons item items ih =>
      rw [List.flatMap_cons, List.flatMap_cons]
      rcases ih h with h | h | h
      · rcases mem_writes_add h with h | h | h
        · exact .inl h
        · exact .inr (.inl (List.mem_append_left _ h))
        · exact .inr (.inr (List.mem_append_left _ h))
      · exact .inr (.inl (List.mem_append_right _ h))
      · exact .inr (.inr (List.mem_append_right _ h))

/-- **What a function writes is declared** as a variable of the function, or as a function that it
holds. -/
theorem mem_writes_usage {f : Function} {name : String} (h : name ∈ f.usage.writes) :
    name ∈ (Step.function f).declaredVars ∨ name ∈ f.body.flatMap Item.declaredFunctions := by
  rcases mem_writes_foldl h with h | h | h
  · exact .inl (List.mem_append_left _ (NameSet.mem_ofList.1 h))
  · exact .inl (List.mem_append_right _ h)
  · exact .inr h

def readsIn (lines : List Line) : NameSet :=
  NameSet.ofList ((itemsIn lines).flatMap Item.reads)

/-- An entry of unread writes is about a function, it is not empty, and each of its names is an
unused variable or a function that the function holds. -/
structure OwnWrites (unusedVars : List String) (f : Function) (entry : UnusedWrites) : Prop where
  function : entry.function = f.name
  names_ne_nil : entry.names ≠ []
  own : ∀ name ∈ entry.names,
    name ∈ unusedVars ∨ name ∈ f.body.flatMap Item.declaredFunctions

theorem ownWrites_of_unusedWrites? {lines : List Line} {f : Function} (hf : f ∈ functionsIn lines)
    {entry : UnusedWrites} (h : f.unusedWrites? (readsIn lines) = some entry) :
    OwnWrites (analyzeLines lines).unusedVars f entry := by
  unfold Function.unusedWrites? at h
  dsimp only at h
  split at h
  · cases h
  · rename_i hsome
    obtain rfl := Option.some.inj h
    refine ⟨rfl, fun hnil => hsome (List.isEmpty_iff.2 hnil), fun name hname => ?_⟩
    obtain ⟨hwritten, hunread⟩ := List.mem_filter.1 hname
    rcases mem_writes_usage hwritten with hdeclared | hheld
    · refine .inl (List.mem_filter.2 ⟨?_, hunread⟩)
      exact NameSet.mem_ofList.2 (List.mem_flatMap.2 ⟨_, mem_functionsIn.1 hf, hdeclared⟩)
    · exact .inr hheld

theorem forall₂_unusedWrites (lines : List Line) :
    List.Forall₂ (OwnWrites (analyzeLines lines).unusedVars)
      ((functionsIn lines).filter (fun f => (f.unusedWrites? (readsIn lines)).isSome))
      (analyzeLines lines).unusedWrites := by
  have hentries := forall₂_filterMap (Function.unusedWrites? (readsIn lines)) (functionsIn lines)
  have howners := (List.forall₂_and_left _ _).2 ⟨fun _ hf => (List.mem_filter.1 hf).1, hentries⟩
  exact howners.imp (fun _ _ ⟨hf, hentry⟩ => ownWrites_of_unusedWrites? hf hentry)

/-! ## Reads of names without a binding -/

section Uninitialized

variable {lines : List Line} {name : String}

/-- A name that is reported as never written is neither declared nor bound. -/
theorem unbound_of_mem_uninitializedVars (h : name ∈ (analyzeLines lines).uninitializedVars) :
    name ∉ (analyzeLines lines).declaredVars ∧
      name ∉ (outline lines).flatMap Step.boundNames := by
  rw [uninitializedVars_analyzeLines, List.mem_eraseDups] at h
  have hunbound := (List.mem_filter.1 h).2
  simp only [isUnbound, Bool.and_eq_true, decide_eq_true_eq] at hunbound
  exact ⟨hunbound.1.1.1.1, hunbound.1.1.1.2⟩

theorem mem_boundNames_of_items {item : Item} (hitem : item ∈ itemsIn lines)
    (h : name ∈ item.boundNames) : name ∈ (outline lines).flatMap Step.boundNames := by
  obtain ⟨step, hstep, hin⟩ := List.mem_flatMap.1 hitem
  refine List.mem_flatMap.2 ⟨step, hstep, ?_⟩
  cases step with
  | line other => exact List.mem_singleton.1 hin ▸ h
  | function f => exact List.mem_cons_of_mem _ (List.mem_flatMap.2 ⟨item, hin, h⟩)

theorem mem_boundNames_of_imported (h : name ∈ (importsIn lines).map (·.name)) :
    name ∈ (outline lines).flatMap Step.boundNames := by
  obtain ⟨item, hitem, names, hrole, hname⟩ := mem_names_importsIn.1 h
  refine mem_boundNames_of_items hitem ?_
  rw [Item.boundNames, hrole]
  exact hname

theorem mem_boundNames_of_declaredFunctions (h : name ∈ (analyzeLines lines).declaredFunctions) :
    name ∈ (outline lines).flatMap Step.boundNames := by
  obtain ⟨step, hstep, h⟩ := List.mem_flatMap.1 (NameSet.mem_ofList.1 h)
  refine List.mem_flatMap.2 ⟨step, hstep, ?_⟩
  cases step with
  | line item => exact mem_boundNames_of_declared h
  | function f =>
      rcases List.mem_cons.1 h with rfl | h
      · exact List.mem_cons_self
      · obtain ⟨item, hitem, h⟩ := List.mem_flatMap.1 h
        exact List.mem_cons_of_mem _
          (List.mem_flatMap.2 ⟨item, hitem, mem_boundNames_of_declared h⟩)

end Uninitialized

/-! ## All tables -/

/-- The names that a source declares, reads, calls and imports fit together. -/
structure NamesFit (lines : List Line) (findings : PythonFindings) : Prop where
  nodup : ∀ names ∈ [findings.declaredFunctions, findings.calledFunctions, findings.declaredVars,
    findings.usedVars, findings.unusedVars, findings.uninitializedVars], names.Nodup
  used_declared : findings.usedVars.Sublist findings.declaredVars
  unused_declared : findings.unusedVars.Sublist findings.declaredVars
  used_apart : findings.usedVars.Disjoint findings.unusedVars
  /-- A declared variable in neither list is not meant to be used. -/
  others : ∀ name ∈ findings.declaredVars, name ∉ findings.usedVars →
    name ∉ findings.unusedVars → name.toList.head? = some '_'
  unusedFunctions_declared : findings.unusedFunctions.Sublist findings.declaredFunctions
  unusedFunctions_uncalled : findings.unusedFunctions.Disjoint findings.calledFunctions
  /-- The entries are about functions of the source, in their order. -/
  unusedWrites : ∃ owners : List Function, owners.Sublist (functionsIn lines) ∧
    List.Forall₂ (OwnWrites findings.unusedVars) owners findings.unusedWrites
  /-- One entry for each imported name that is not mentioned, in the order of the first imports. -/
  unusedImports : findings.unusedImports.map (·.name) =
    ((importsIn lines).map (·.name)).eraseDups.filter (· ∉ mentionsIn lines)
  unusedImports_nodup : (findings.unusedImports.map (·.name)).Nodup
  unusedImports_last : ∀ i ∈ findings.unusedImports, IsLastImport (importsIn lines) i
  uninitialized_undeclared : findings.uninitializedVars.Disjoint findings.declaredVars
  uninitialized_unimported :
    findings.uninitializedVars.Disjoint ((importsIn lines).map (·.name))
  uninitialized_unbound : findings.uninitializedVars.Disjoint findings.declaredFunctions

theorem namesFit_analyzeLines (lines : List Line) : NamesFit lines (analyzeLines lines) where
  nodup := by
    simp only [List.forall_mem_cons, List.not_mem_nil, false_implies, implies_true, and_true]
    exact ⟨NameSet.nodup _, NameSet.nodup _, NameSet.nodup _, (NameSet.nodup _).filter _,
      (NameSet.nodup _).filter _, (NameSet.nodup _).filter _⟩
  used_declared := List.filter_sublist
  unused_declared := List.filter_sublist
  used_apart := by
    intro name hused hunused
    have hread := (List.mem_filter.1 hused).2
    have hunread := (Bool.and_eq_true_iff.1 (List.mem_filter.1 hunused).2).1
    exact of_decide_eq_true hunread (of_decide_eq_true hread)
  others := by
    intro name hdeclared hused hunused
    by_contra hmeant
    refine hunused (List.mem_filter.2 ⟨hdeclared, Bool.and_eq_true_iff.2 ⟨?_, ?_⟩⟩)
    · exact decide_eq_true
        (fun hread => hused (List.mem_filter.2 ⟨hdeclared, decide_eq_true hread⟩))
    · rw [isThrowaway, Bool.not_eq_true', beq_eq_false_iff_ne]
      exact hmeant
  unusedFunctions_declared := List.filter_sublist
  unusedFunctions_uncalled := by
    intro name hunused hcalled
    have huncalled := (Bool.and_eq_true_iff.1 (List.mem_filter.1 hunused).2).1
    exact of_decide_eq_true huncalled hcalled
  unusedWrites := ⟨_, List.filter_sublist, forall₂_unusedWrites lines⟩
  unusedImports := names_unusedImports lines
  unusedImports_nodup := by
    rw [names_unusedImports]
    exact (nodup_eraseDups _).filter _
  unusedImports_last := fun i hi => (noted_importsIn lines).last i (List.mem_filter.1 hi).1
  uninitialized_undeclared := fun _ h => (unbound_of_mem_uninitializedVars h).1
  uninitialized_unimported := fun _ h himported =>
    (unbound_of_mem_uninitializedVars h).2 (mem_boundNames_of_imported himported)
  uninitialized_unbound := fun _ h hdeclared =>
    (unbound_of_mem_uninitializedVars h).2 (mem_boundNames_of_declaredFunctions hdeclared)

/-- **The tables of names fit together.** -/
theorem names_fit_together (source : String) : NamesFit (linesOf source) (analyze source) :=
  namesFit_analyzeLines (linesOf source)

end CodeSurvey.Python
