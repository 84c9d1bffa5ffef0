/-
# What a walk comes to

A walk that finds its candidates does nothing but run a pool over the first of them: its record and
its reports are those of the pool at its end (`walk_of_candidates`, `walk_events`).  That end is one
of the states the pool can reach, whatever the surroundings decide, so every invariant of a pool
holds there (`endPool_accounted`, `endPool_sound`).

The record then adds up: each file started is one of the analyses or one of the skipped, and the
walk counts as cancelled exactly when not all of its files were started.
-/
import CodeSurvey.Proofs.Walk.Accounting
import CodeSurvey.Proofs.Walk.Candidate

namespace CodeSurvey

/-! ## The repository of a walk -/

/-- The candidates of a checkout are those of a tree; its files may answer as they like. -/
def Checkout.Lists (checkout : Checkout) (tree : FileTree) : Prop :=
  ∀ excluded, checkout.candidates excluded = .ok (candidatesOf excluded "" tree)

theorem Checkout.lists_ofTree (tree : FileTree) : (Checkout.ofTree tree).Lists tree :=
  fun _ => rfl

/-- The repository of a walk could be put into a directory. -/
def Surroundings.Provide (around : Surroundings) (checkout : Checkout) : Prop :=
  around.makeDirectory = .ok () ∧ around.fetch = .ok checkout

theorem WalkLimits.length_admitted (limits : WalkLimits) (listed : List Candidate) :
    (limits.admitted listed).length = min listed.length limits.maxFiles := by
  rw [admitted, List.length_take, Nat.min_comm]

theorem WalkOutcome.events_finished (events : List ProgressEvent) (succeeds : Bool)
    (result : Except WalkError RepositoryAnalysis) :
    (⟨[.makeDirectory, .fetch] ++ events.map .report ++ [.removeDirectory succeeds], result⟩ :
      WalkOutcome).events = events := by
  simp only [WalkOutcome.events, List.filterMap_append, List.filterMap_map]
  simp

section Walk

variable {request : WalkRequest} {around : Surroundings} {checkout : Checkout}
  {listed : List Candidate}

theorem walk_of_candidates (hconcurrency : 1 ≤ request.limits.concurrency)
    (hfiles : 1 ≤ request.limits.maxFiles) (hprovide : around.Provide checkout)
    (hlisted : checkout.candidates (matchesAny request.limits.excluded) = .ok listed) :
    walk request around =
      { effects := [.makeDirectory, .fetch] ++
          ((endPool request around checkout.access (request.limits.admitted listed)).events
            listed.length (request.limits.admitted listed).length).map .report ++
          [.removeDirectory around.removeDirectory]
        result := .ok
          ((endPool request around checkout.access (request.limits.admitted listed)).analysis
            request around.time (request.limits.admitted listed).length) } := by
  rw [walk, if_neg (by omega), if_neg (by omega), hprovide.1, hprovide.2]
  simp only [hlisted]

theorem walk_events (hconcurrency : 1 ≤ request.limits.concurrency)
    (hfiles : 1 ≤ request.limits.maxFiles) (hprovide : around.Provide checkout)
    (hlisted : checkout.candidates (matchesAny request.limits.excluded) = .ok listed) :
    (walk request around).events =
      (endPool request around checkout.access (request.limits.admitted listed)).events
        listed.length (request.limits.admitted listed).length := by
  rw [walk_of_candidates hconcurrency hfiles hprovide hlisted, WalkOutcome.events_finished]

end Walk

/-! ## The pool at its end -/

section EndPool

variable {request : WalkRequest} {around : Surroundings} {access : FileAccess}
  {admitted : List Candidate}

theorem endPool_eq_actAll (request : WalkRequest) (around : Surroundings) (access : FileAccess)
    (admitted : List Candidate) : ∃ more, PoolAction.callOff ∉ more ∧
      endPool request around access admitted =
        (Pool.start admitted around.calledOff).actAll (poolRules request around access)
          (around.actions ++ more) :=
  Pool.run_eq_actAll _ _ _

theorem endPool_of_actAll {I : Pool → Prop}
    (h : ∀ actions, I ((Pool.start admitted around.calledOff).actAll
      (poolRules request around access) actions)) :
    I (endPool request around access admitted) := by
  obtain ⟨more, _, hend⟩ := endPool_eq_actAll request around access admitted
  rw [hend]
  exact h _

theorem endPool_of_actAll_of_not_mem {I : Pool → Prop}
    (hnot : PoolAction.callOff ∉ around.actions)
    (h : ∀ actions, PoolAction.callOff ∉ actions →
      I ((Pool.start admitted around.calledOff).actAll (poolRules request around access)
        actions)) :
    I (endPool request around access admitted) := by
  obtain ⟨more, hmore, hend⟩ := endPool_eq_actAll request around access admitted
  rw [hend]
  refine h _ ?_
  rw [List.mem_append, not_or]
  exact ⟨hnot, hmore⟩

theorem endPool_isDone (hconcurrency : 1 ≤ request.limits.concurrency) (around : Surroundings)
    (access : FileAccess) (admitted : List Candidate) :
    (endPool request around access admitted).isDone = true :=
  Pool.run_isDone hconcurrency _ _

theorem endPool_accounted (request : WalkRequest) (around : Surroundings) (access : FileAccess)
    (admitted : List Candidate) :
    (endPool request around access admitted).Accounted (poolRules request around access)
      admitted :=
  endPool_of_actAll (Pool.accounted_start _ admitted around.calledOff).actAll

theorem endPool_sound (request : WalkRequest) (around : Surroundings) (access : FileAccess)
    (admitted : List Candidate) :
    ∀ j ∈ (endPool request around access admitted).jobs,
      j.Sound (poolRules request around access) :=
  endPool_of_actAll (I := fun p => ∀ j ∈ p.jobs, j.Sound _) (Pool.sound_of_start _ _ _)

end EndPool

/-! ## Records and reports -/

theorem Pool.filesAnalyzed_analysis (p : Pool) (request : WalkRequest) (time : String)
    (total : Nat) : (p.analysis request time total).filesAnalyzed = p.files.length :=
  List.length_mergeSort _

theorem Pool.files_analysis_perm (p : Pool) (request : WalkRequest) (time : String)
    (total : Nat) : (p.analysis request time total).files.Perm p.files :=
  List.mergeSort_perm _ _

/-- The reports on files count them, in the order in which they were handed over. -/
theorem fileEvents_eq_mapIdx (total : Nat) : ∀ (n : Nat) (jobs : List Job),
    fileEvents total n jobs = (jobs.map Job.candidate).mapIdx
      (fun i c => .file c.path (n + i + 1) total)
  | _, [] => rfl
  | n, j :: rest => by
      rw [fileEvents, fileEvents_eq_mapIdx total (n + 1) rest, List.map_cons, List.mapIdx_cons]
      refine congrArg (ProgressEvent.file j.candidate.path (n + 1) total :: ·) ?_
      refine List.mapIdx_eq_mapIdx_iff.2 ?_
      intro i hi
      have hcount : n + 1 + i = n + (i + 1) := by omega
      rw [hcount]

theorem Pool.Accounted.lastEvent_eq {rules : PoolRules} {admitted : List Candidate} {p : Pool}
    (h : Accounted rules admitted p) (hdone : p.isDone = true) :
    p.lastEvent admitted.length =
      if p.startedCount < admitted.length then .cancelled p.files.length p.skipped
      else .done p.files.length p.skipped := by
  simp only [lastEvent, h.cutShort_iff hdone]

/-! ## Walks that nobody calls off -/

/-- Nobody calls a walk off: not before it begins, not in answer to a report, not in between. -/
structure Surroundings.Quiet (around : Surroundings) : Prop where
  before : around.calledOff = false
  reports : ∀ n, around.calledOffAt n = false
  between : PoolAction.callOff ∉ around.actions

section Quiet

variable {request : WalkRequest} {around : Surroundings}

end Quiet

/-! ## The account of a walk -/

/-- **Every file of a walk is accounted for.**  In every state that the pool of a walk can reach,
the files started are the first candidates in path order, at most as many as allowed are in
flight, and the others ended once each; at the end the record adds up to the files started. -/
theorem walk_accounts_for_each_file (request : WalkRequest) (around : Surroundings)
    (checkout : Checkout) (tree : FileTree) (hconcurrency : 1 ≤ request.limits.concurrency)
    (hfiles : 1 ≤ request.limits.maxFiles) (hprovide : around.Provide checkout)
    (hlists : checkout.Lists tree) :
    let listed := candidatesOf (matchesAny request.limits.excluded) "" tree
    let admitted := request.limits.admitted listed
    let rules := poolRules request around checkout.access
    let first := Pool.start admitted around.calledOff
    let last := endPool request around checkout.access admitted
    listed.Pairwise (fun a b => a.path ≤ b.path) ∧
    admitted.length = min listed.length request.limits.maxFiles ∧
    (∀ actions, (first.actAll rules actions).KeepsAccount rules admitted) ∧
    (∀ actions more, (first.actAll rules actions).finished <+:
      (first.actAll rules (actions ++ more)).finished) ∧
    (∃ more, last = first.actAll rules (around.actions ++ more)) ∧
    ∃ analysis, (walk request around).result = .ok analysis ∧
      analysis.filesAnalyzed + analysis.skipped = last.startedCount ∧
      (∃ passed, passed.length = analysis.skipped ∧
        (analysis.files.map FileAnalysis.candidate ++ passed).Perm
          (admitted.take last.startedCount)) ∧
      (last.calledOff = false → last.startedCount = admitted.length) ∧
      (analysis.cancelled = true ↔ last.startedCount < admitted.length) := by
  intro listed admitted rules first last
  have hwalk := walk_of_candidates hconcurrency hfiles hprovide (hlists _)
  have hdone : last.isDone = true := endPool_isDone hconcurrency around checkout.access admitted
  have hlast : last.Accounted rules admitted :=
    endPool_accounted request around checkout.access admitted
  have hsound : ∀ j ∈ last.jobs, j.Sound rules :=
    endPool_sound request around checkout.access admitted
  refine ⟨candidatesOf_pairwise _ _ _, request.limits.length_admitted listed, ?_, ?_, ?_,
    _, congrArg WalkOutcome.result hwalk, ?_, ?_, ?_, ?_⟩
  · intro actions
    have hacc := (Pool.accounted_start rules admitted around.calledOff).actAll actions
    exact hacc.keepsAccount (Pool.sound_of_start rules admitted around.calledOff actions)
  · intro actions more
    rw [Pool.actAll_append]
    exact Pool.actAll_finished_prefix rules _ more
  · obtain ⟨more, _, h⟩ := endPool_eq_actAll request around checkout.access admitted
    exact ⟨more, h⟩
  · rw [Pool.filesAnalyzed_analysis, Pool.startedCount_of_isDone hdone]
    exact last.length_files_add_skipped
  · refine ⟨last.passedOver, last.length_passedOver, ?_⟩
    have hperm := (last.files_analysis_perm request around.time admitted.length).map
      FileAnalysis.candidate
    exact (hperm.append_right _).trans
      ((Pool.files_passedOver_perm hsound).trans (hlast.finished_perm hdone))
  · exact hlast.startedCount_of_not_calledOff hdone
  · exact hlast.cutShort_iff hdone

/-! ## A walk that is called off -/

/-- A repository with three candidates. -/
def sampleTree : FileTree :=
  .directory [("a.js", .file [120]), ("b.py", .file []), ("c.txt", .file []),
    ("d", .directory [("e.go", .file [])])]

/-- Its candidates can be listed, but no file can be read. -/
def sampleCheckout : Checkout :=
  { Checkout.ofTree sampleTree with access := ⟨fun _ => some 5, fun _ => none⟩ }

/-- One file at a time, and as many as there are. -/
def sampleRequest : WalkRequest :=
  { url := "sample"
    branch := none
    limits :=
      { maxFiles := 3, maxFileSize := 10, maxTotalSize := 12, concurrency := 1, excluded := [] } }

/-- The walk is called off in answer to its second file. -/
def sampleSurroundings : Surroundings :=
  { makeDirectory := .ok ()
    fetch := .ok sampleCheckout
    removeDirectory := true
    time := ""
    calledOff := false
    calledOffAt := (· == 2)
    actions := [.pull] }

theorem candidatesOf_sampleTree :
    candidatesOf (matchesAny sampleRequest.limits.excluded) "" sampleTree =
      [⟨"a.js", .javaScript⟩, ⟨"b.py", .python⟩, ⟨"d/e.go", .go⟩] := by
  rw [sampleTree, candidatesOf, List.mergeSort_of_pairwise]
  · rfl
  · decide

/-- One file at a time, called off at the second of three: two were started, and both were
skipped. -/
theorem walk_accounts_for_two_of_three :
    1 ≤ sampleRequest.limits.concurrency ∧ 1 ≤ sampleRequest.limits.maxFiles ∧
    sampleSurroundings.Provide sampleCheckout ∧ sampleCheckout.Lists sampleTree ∧
    ∃ analysis, (walk sampleRequest sampleSurroundings).result = .ok analysis ∧
      analysis.filesAnalyzed + analysis.skipped = 2 ∧ analysis.cancelled = true := by
  have hlists : sampleCheckout.Lists sampleTree := Checkout.lists_ofTree sampleTree
  have hstarted : (endPool sampleRequest sampleSurroundings sampleCheckout.access
      (sampleRequest.limits.admitted (candidatesOf (matchesAny sampleRequest.limits.excluded) ""
        sampleTree))).startedCount = 2 := by
    rw [candidatesOf_sampleTree]
    decide
  obtain ⟨-, hlength, -, -, -, analysis, hresult, hsum, -, -, hcancelled⟩ :=
    walk_accounts_for_each_file sampleRequest sampleSurroundings sampleCheckout sampleTree
      (by decide) (by decide) ⟨rfl, rfl⟩ hlists
  rw [hstarted] at hsum hcancelled
  rw [hlength, candidatesOf_sampleTree] at hcancelled
  exact ⟨by decide, by decide, ⟨rfl, rfl⟩, hlists, analysis, hresult, hsum,
    hcancelled.2 (by decide)⟩

end CodeSurvey
