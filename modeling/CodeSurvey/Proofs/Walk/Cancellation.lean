/-
# Calling a walk off stops it at an exact place

A pool fills up before it hands a file over.  So when the report on the `n`-th file calls the walk
off, either all files were started already or as many as allowed were in flight, the reported one
among them; the count of files started is then known, and since nothing is pulled any more it
stays (`Pool.HaltsAt`).  Which files overtook which does not matter for it.
-/
import CodeSurvey.Proofs.Walk.Ending

namespace CodeSurvey

/-- The walk is called off by the answer to its report on the `n`-th file, and by nothing before
or besides the reports. -/
structure Surroundings.CallOffFirstAt (around : Surroundings) (n : Nat) : Prop where
  before : around.calledOff = false
  between : PoolAction.callOff ∉ around.actions
  earlier : ∀ m, 1 ≤ m → m < n → around.calledOffAt m = false
  answer : around.calledOffAt n = true

/-- If the `n`-th report is the first to be answered by calling off, then by so many reports the
walk was called off exactly if there were `n` of them. -/
theorem answered_iff {calledOffAt : Nat → Bool} {n : Nat} (hn : 1 ≤ n)
    (hearlier : ∀ m, 1 ≤ m → m < n → calledOffAt m = false) (hanswer : calledOffAt n = true)
    (count : Nat) :
    (false = true ∨ ∃ m, 1 ≤ m ∧ m ≤ count ∧ calledOffAt m = true) ↔ n ≤ count := by
  constructor
  · rintro (hbefore | ⟨m, hm, hle, hat⟩)
    · cases hbefore
    · rcases Nat.lt_or_ge m n with hlt | hge
      · rw [hearlier m hm hlt] at hat
        cases hat
      · exact Nat.le_trans hge hle
  · exact fun hle => Or.inr ⟨n, hn, hle, hanswer⟩

namespace Pool

/-- A pool is called off when it hands its `n`-th file over, and from then on a known number of
files is started. -/
structure HaltsAt (rules : PoolRules) (admitted : List Candidate) (n : Nat) (p : Pool) :
    Prop where
  accounted : Accounted rules admitted p
  calledOff_iff : p.calledOff = true ↔ n ≤ p.finished.length
  startedCount_eq : n ≤ p.finished.length →
    p.startedCount = min admitted.length (rules.limits.concurrency + n - 1)

section Halts

variable {rules : PoolRules} {admitted : List Candidate} {n : Nat} {p q : Pool}

theorem haltsAt_start (rules : PoolRules) (admitted : List Candidate) (hn : 1 ≤ n) :
    HaltsAt rules admitted n (start admitted false) where
  accounted := accounted_start rules admitted false
  calledOff_iff := by
    simp only [start, Bool.false_eq_true, List.length_nil, false_iff]
    omega
  startedCount_eq := by
    intro hle
    simp only [start, List.length_nil] at hle
    omega

theorem Accounted.startedCount_of_not_canPull (h : Accounted rules admitted p)
    (hpull : p.canPull rules = false) (hoff : p.calledOff = false) :
    p.startedCount = min admitted.length (rules.limits.concurrency + p.finished.length) := by
  have hsum := h.startedCount_add
  have hle := h.running_le
  have hcount : p.startedCount = p.running.length + p.finished.length := rfl
  by_cases hclosed : p.closed = true
  · have hwaiting := (h.closed hclosed).resolve_right (by simp [hoff])
    rw [hwaiting, List.length_nil] at hsum
    omega
  · simp only [canPull, Bool.and_eq_false_iff, Bool.not_eq_false', decide_eq_false_iff_not,
      Nat.not_lt] at hpull
    have hfull := hpull.resolve_left hclosed
    omega

/-- The handing over of the `n`-th file finds the pool full, or with nothing left to pull; after
it nothing is pulled. -/
theorem HaltsAt.step {a : PoolAction} (h : HaltsAt rules admitted n p) (hn : 1 ≤ n)
    (hearlier : ∀ m, 1 ≤ m → m < n → rules.calledOffAt m = false)
    (hanswer : rules.calledOffAt n = true) (ha : a ≠ .callOff) (hs : Step rules p a q) :
    HaltsAt rules admitted n q := by
  have hanswered := answered_iff hn hearlier hanswer
  refine ⟨h.accounted.step hs, ?_, ?_⟩
  · have hflag := hs.calledOff_iff ha (h.calledOff_iff.trans (hanswered _).symm)
    exact hflag.trans (hanswered _)
  · cases hs with
    | idle _ _ => exact h.startedCount_eq
    | close _ _ => exact h.startedCount_eq
    | callOff => exact h.startedCount_eq
    | @start c rest _ hoff _ =>
        intro hle
        rw [h.calledOff_iff.2 hle] at hoff
        cases hoff
    | @advance front back j hr =>
        intro hle
        rw [← h.startedCount_eq hle]
        simp only [startedCount, hr, List.length_append, List.length_cons]
    | @handOver front back j hpull hr _ =>
        intro hle
        rw [List.length_append, List.length_singleton] at hle
        have hcount : (front ++ back).length + (p.finished ++ [j]).length = p.startedCount := by
          rw [startedCount, hr]
          simp only [List.length_append, List.length_cons, List.length_nil]
          omega
        refine hcount.trans ?_
        rcases Nat.lt_or_ge p.finished.length n with hlt | hge
        · have hoff : p.calledOff = false := by
            rw [Bool.eq_false_iff, Ne, h.calledOff_iff]
            omega
          rw [h.accounted.startedCount_of_not_canPull hpull hoff]
          omega
        · exact h.startedCount_eq hge

/-- At its end a pool has started that many files; if it never got to its `n`-th one, then all. -/
theorem HaltsAt.startedCount_of_isDone (h : HaltsAt rules admitted n p)
    (hconcurrency : 1 ≤ rules.limits.concurrency) (hdone : p.isDone = true) :
    p.startedCount = min admitted.length (rules.limits.concurrency + n - 1) := by
  rcases Nat.lt_or_ge p.finished.length n with hlt | hge
  · have hoff := mt h.calledOff_iff.1 (Nat.not_le.2 hlt)
    have hall := h.accounted.startedCount_of_not_calledOff hdone (Bool.eq_false_iff.2 hoff)
    have hended := Pool.startedCount_of_isDone hdone
    omega
  · exact h.startedCount_eq hge

end Halts

theorem startedCount_of_calledOff_start (rules : PoolRules) (admitted : List Candidate)
    (actions : List PoolAction) :
    ((start admitted true).actAll rules actions).startedCount = 0 := by
  let I (p : Pool) : Prop := p.calledOff = true ∧ p.running = [] ∧ p.finished = []
  suffices h : I ((start admitted true).actAll rules actions) by
    rw [startedCount, h.2.1, h.2.2]
    rfl
  refine actAll_induction (I := I) ?_ ⟨rfl, rfl, rfl⟩
  rintro _ _ p q ⟨hoff, hrunning, hfinished⟩ hs
  refine ⟨hs.calledOff_of hoff, ?_⟩
  cases hs with
  | idle _ _ => exact ⟨hrunning, hfinished⟩
  | close _ _ => exact ⟨hrunning, hfinished⟩
  | callOff => exact ⟨hrunning, hfinished⟩
  | start _ hnot _ =>
      rw [hoff] at hnot
      cases hnot
  | advance hr => simp [hrunning] at hr
  | handOver _ hr _ => simp [hrunning] at hr

end Pool

/-! ## The walk around the pool -/

theorem endPool_startedCount {request : WalkRequest} {around : Surroundings} {n : Nat}
    (hconcurrency : 1 ≤ request.limits.concurrency) (hn : 1 ≤ n)
    (hfirst : around.CallOffFirstAt n) (access : FileAccess) (admitted : List Candidate) :
    (endPool request around access admitted).startedCount =
      min admitted.length (request.limits.concurrency + n - 1) := by
  have hhalts : (endPool request around access admitted).HaltsAt
      (poolRules request around access) admitted n := by
    refine endPool_of_actAll_of_not_mem hfirst.between ?_
    intro actions hnot
    rw [hfirst.before]
    refine Pool.actAll_induction ?_ (Pool.haltsAt_start _ admitted hn)
    intro a ha p q hp hs
    exact hp.step hn hfirst.earlier hfirst.answer (fun h => hnot (h ▸ ha)) hs
  exact hhalts.startedCount_of_isDone hconcurrency
    (endPool_isDone hconcurrency around access admitted)

/-- **Calling a walk off stops it at an exact place.**  If the report on the `n`-th file is the
first to be answered by calling off, then with `c` files at a time exactly the first `c + n - 1`
files are started, or all if they are fewer; all of those are reported, and the last report says
cancelled exactly if files were left out.  Called off before it begins, a walk starts none. -/
theorem cancellation_is_exact (request : WalkRequest) (checkout : Checkout)
    (listed : List Candidate) (hconcurrency : 1 ≤ request.limits.concurrency)
    (hfiles : 1 ≤ request.limits.maxFiles)
    (hlisted : checkout.candidates (matchesAny request.limits.excluded) = .ok listed) :
    let admitted := request.limits.admitted listed
    (∀ (n : Nat) (around : Surroundings), 1 ≤ n → around.Provide checkout →
      around.CallOffFirstAt n →
        let count := min admitted.length (request.limits.concurrency + n - 1)
        let last := endPool request around checkout.access admitted
        last.running = [] ∧ last.startedCount = count ∧
        (last.jobs.map Job.candidate).Perm (admitted.take count) ∧
        ∃ (a : RepositoryAnalysis) (reported : List Candidate),
          (walk request around).result = .ok a ∧
          a.filesAnalyzed + a.skipped = count ∧
          (a.cancelled = true ↔ count < admitted.length) ∧
          reported.Perm (admitted.take count) ∧
          (walk request around).events =
            [.start listed.length] ++
            reported.mapIdx (fun i c => .file c.path (i + 1) admitted.length) ++
            [if count < admitted.length then .cancelled a.filesAnalyzed a.skipped
              else .done a.filesAnalyzed a.skipped]) ∧
    (∀ around : Surroundings, around.Provide checkout → around.calledOff = true →
      (endPool request around checkout.access admitted).startedCount = 0 ∧
      (walk request around).events =
        [.start listed.length,
          if 0 < admitted.length then .cancelled 0 0 else .done 0 0]) := by
  intro admitted
  refine ⟨?_, ?_⟩
  · intro n around hn hprovide hfirst count last
    have hdone : last.isDone = true := endPool_isDone hconcurrency around checkout.access admitted
    have hacc : last.Accounted _ admitted :=
      endPool_accounted request around checkout.access admitted
    have hcount : last.startedCount = count :=
      endPool_startedCount hconcurrency hn hfirst checkout.access admitted
    have hcut := hacc.cutShort_iff hdone
    have hstarted := hacc.take_drop.1
    have hreported := hacc.finished_perm hdone
    rw [hcount] at hcut hstarted hreported
    refine ⟨Pool.running_eq_nil_of_isDone hdone, hcount, hstarted, _, _,
      congrArg WalkOutcome.result (walk_of_candidates hconcurrency hfiles hprovide hlisted), ?_,
      hcut, hreported, ?_⟩
    · rw [Pool.filesAnalyzed_analysis, ← hcount, Pool.startedCount_of_isDone hdone]
      exact last.length_files_add_skipped
    · rw [walk_events hconcurrency hfiles hprovide hlisted, Pool.events, hacc.lastEvent_eq hdone,
        hcount, fileEvents_eq_mapIdx, Pool.filesAnalyzed_analysis]
      simp only [Nat.zero_add]
      rfl
  · intro around hprovide hoff
    have hdone := endPool_isDone hconcurrency around checkout.access admitted
    have hacc := endPool_accounted request around checkout.access admitted
    have hnone : (endPool request around checkout.access admitted).startedCount = 0 := by
      obtain ⟨more, _, h⟩ := endPool_eq_actAll request around checkout.access admitted
      rw [h, hoff]
      exact Pool.startedCount_of_calledOff_start _ _ _
    refine ⟨hnone, ?_⟩
    have hfinished : (endPool request around checkout.access admitted).finished = [] := by
      rw [← List.length_eq_zero_iff, ← Pool.startedCount_of_isDone hdone]
      exact hnone
    rw [walk_events hconcurrency hfiles hprovide hlisted, Pool.events, hacc.lastEvent_eq hdone,
      hnone, Pool.files, Pool.skipped, hfinished]
    rfl

theorem callOffFirstAt_sampleSurroundings : sampleSurroundings.CallOffFirstAt 2 where
  before := rfl
  between := by decide
  earlier := by
    intro m _ hm
    simp only [sampleSurroundings, beq_eq_false_iff_ne]
    omega
  answer := rfl

/-- One file at a time, called off by the report on the second of three: the third is left out.
Called off before the first, the walk ends at once. -/
theorem sample_cancelled_after_two :
    1 ≤ sampleRequest.limits.concurrency ∧ 1 ≤ sampleRequest.limits.maxFiles ∧
    sampleSurroundings.Provide sampleCheckout ∧ sampleSurroundings.CallOffFirstAt 2 ∧
    (∃ (a : RepositoryAnalysis) (reported : List Candidate),
      (walk sampleRequest sampleSurroundings).result = .ok a ∧
      a.filesAnalyzed + a.skipped = 2 ∧
      reported.Perm [⟨"a.js", .javaScript⟩, ⟨"b.py", .python⟩] ∧
      (walk sampleRequest sampleSurroundings).events =
        [.start 3] ++ reported.mapIdx (fun i c => .file c.path (i + 1) 3) ++
        [.cancelled a.filesAnalyzed a.skipped]) ∧
    (walk sampleRequest { sampleSurroundings with calledOff := true }).events =
      [.start 3, .cancelled 0 0] := by
  have hlisted : sampleCheckout.candidates (matchesAny sampleRequest.limits.excluded) =
      .ok [⟨"a.js", .javaScript⟩, ⟨"b.py", .python⟩, ⟨"d/e.go", .go⟩] :=
    congrArg Except.ok candidatesOf_sampleTree
  obtain ⟨hreport, hbefore⟩ := cancellation_is_exact sampleRequest sampleCheckout _ (by decide)
    (by decide) hlisted
  obtain ⟨-, -, -, a, reported, hresult, hsum, -, hperm, hevents⟩ :=
    hreport 2 sampleSurroundings (by decide) ⟨rfl, rfl⟩ callOffFirstAt_sampleSurroundings
  obtain ⟨-, hnone⟩ := hbefore { sampleSurroundings with calledOff := true } ⟨rfl, rfl⟩ rfl
  exact ⟨by decide, by decide, ⟨rfl, rfl⟩, callOffFirstAt_sampleSurroundings,
    ⟨a, reported, hresult, hsum, hperm, hevents⟩, hnone⟩

end CodeSurvey
