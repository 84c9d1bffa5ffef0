/-
# What a walk reports, and that it cleans up behind itself

`walk` leaves on one of five ways, and everything said here is read off those (`walk_exit`): a
report is made on the last of them only, and a directory that was made is removed on each way that
leads past its making.  Whether the removal succeeds is the last thing that happens, so nothing can
depend on it.
-/
import CodeSurvey.Proofs.Walk.Ending

namespace CodeSurvey

/-! ## The ways out -/

/-- A walk's pool at its end, over the first of the candidates listed. -/
def lastPool (request : WalkRequest) (around : Surroundings) (checkout : Checkout)
    (listed : List Candidate) : Pool :=
  endPool request around checkout.access (request.limits.admitted listed)

/-- The ways out of a walk. -/
inductive WalkExit (request : WalkRequest) (around : Surroundings) : WalkOutcome → Prop
  /-- The limits leave nothing to do. -/
  | refused {e : WalkError} : request.limits.concurrency = 0 ∨ request.limits.maxFiles = 0 →
      WalkExit request around ⟨[], .error e⟩
  | noDirectory {e : WalkError} : around.makeDirectory = .error e →
      WalkExit request around ⟨[.makeDirectory], .error e⟩
  | notFetched {e : WalkError} : request.limits.concurrency ≠ 0 → request.limits.maxFiles ≠ 0 →
      around.fetch = .error e →
      WalkExit request around
        ⟨[.makeDirectory, .fetch, .removeDirectory around.removeDirectory], .error e⟩
  | notListed {checkout : Checkout} {e : WalkError} : request.limits.concurrency ≠ 0 →
      request.limits.maxFiles ≠ 0 → around.fetch = .ok checkout →
      checkout.candidates (matchesAny request.limits.excluded) = .error e →
      WalkExit request around
        ⟨[.makeDirectory, .fetch, .removeDirectory around.removeDirectory], .error e⟩
  | finished {checkout : Checkout} {listed : List Candidate} : request.limits.concurrency ≠ 0 →
      request.limits.maxFiles ≠ 0 → around.Provide checkout →
      checkout.candidates (matchesAny request.limits.excluded) = .ok listed →
      WalkExit request around
        { effects := [.makeDirectory, .fetch] ++
            ((lastPool request around checkout listed).events listed.length
              (request.limits.admitted listed).length).map .report ++
            [.removeDirectory around.removeDirectory]
          result := .ok ((lastPool request around checkout listed).analysis request around.time
            (request.limits.admitted listed).length) }

theorem walk_exit (request : WalkRequest) (around : Surroundings) :
    WalkExit request around (walk request around) := by
  unfold walk
  split
  · rename_i hconcurrency
    exact .refused (Or.inl hconcurrency)
  · rename_i hconcurrency
    split
    · rename_i hfiles
      exact .refused (Or.inr hfiles)
    · rename_i hfiles
      split
      · rename_i e hmake
        exact .noDirectory hmake
      · rename_i hmake
        split
        · rename_i e hfetch
          exact .notFetched hconcurrency hfiles hfetch
        · rename_i checkout hfetch
          split
          · rename_i e hlisted
            exact .notListed hconcurrency hfiles hfetch hlisted
          · rename_i listed hlisted
            exact .finished hconcurrency hfiles ⟨hmake, hfetch⟩ hlisted

/-! ## Reports -/

namespace WalkExit

variable {request : WalkRequest} {around : Surroundings} {o : WalkOutcome}

/-- A failed walk reports nothing. -/
theorem events_of_error (h : WalkExit request around o) {e : WalkError}
    (hresult : o.result = .error e) : o.events = [] := by
  cases h with
  | refused _ => rfl
  | noDirectory _ => rfl
  | notFetched _ _ _ => rfl
  | notListed _ _ _ _ => rfl
  | finished _ _ _ _ => cases hresult

/-- A walk that comes to a record reports its candidates, then each file with its number, then the
end; the numbers in the record are those of the last report. -/
theorem events_of_ok (h : WalkExit request around o) {a : RepositoryAnalysis}
    (hresult : o.result = .ok a) :
    ∃ (checkout : Checkout) (listed reported : List Candidate),
      around.Provide checkout ∧
      checkout.candidates (matchesAny request.limits.excluded) = .ok listed ∧
      reported.length = a.filesAnalyzed + a.skipped ∧
      o.events = [.start listed.length] ++
        reported.mapIdx
          (fun i c => .file c.path (i + 1) (min listed.length request.limits.maxFiles)) ++
        [if a.cancelled then .cancelled a.filesAnalyzed a.skipped
          else .done a.filesAnalyzed a.skipped] := by
  cases h with
  | refused _ => cases hresult
  | noDirectory _ => cases hresult
  | notFetched _ _ _ => cases hresult
  | notListed _ _ _ _ => cases hresult
  | @finished checkout listed hconcurrency hfiles hprovide hlisted =>
      cases hresult
      let last := lastPool request around checkout listed
      refine ⟨checkout, listed, last.finished.map Job.candidate, hprovide, hlisted, ?_, ?_⟩
      · rw [List.length_map, Pool.filesAnalyzed_analysis]
        exact last.length_files_add_skipped.symm
      · simp only [WalkOutcome.events_finished, Pool.events, fileEvents_eq_mapIdx, Nat.zero_add,
          WalkLimits.length_admitted, Pool.filesAnalyzed_analysis]
        rfl

/-! ## Effects -/

theorem count_fetch_le (h : WalkExit request around o) : o.effects.count .fetch ≤ 1 := by
  cases h with
  | refused _ => exact Nat.zero_le _
  | noDirectory _ => exact Nat.zero_le _
  | notFetched _ _ _ => exact Nat.le_refl _
  | notListed _ _ _ _ => exact Nat.le_refl _
  | finished _ _ _ _ =>
      have hreports : ∀ events : List ProgressEvent,
          (events.map WalkEffect.report).count .fetch = 0 := by
        intro events
        simp [List.count_eq_zero]
      rw [List.count_append, List.count_append, hreports]
      exact Nat.le_refl _

/-- Limits that leave nothing to do are refused before anything happens. -/
theorem effects_of_limits (h : WalkExit request around o)
    (hlimits : request.limits.concurrency = 0 ∨ request.limits.maxFiles = 0) :
    .fetch ∉ o.effects := by
  have hnot : ∀ {P : Prop}, request.limits.concurrency ≠ 0 → request.limits.maxFiles ≠ 0 → P :=
    fun hconcurrency hfiles => (hlimits.elim hconcurrency hfiles).elim
  cases h with
  | refused _ => exact List.not_mem_nil
  | noDirectory _ => nofun
  | notFetched hconcurrency hfiles _ => exact hnot hconcurrency hfiles
  | notListed hconcurrency hfiles _ _ => exact hnot hconcurrency hfiles
  | finished hconcurrency hfiles _ _ => exact hnot hconcurrency hfiles

theorem removal_last (h : WalkExit request around o) (hmade : around.makeDirectory = .ok ())
    (hmake : .makeDirectory ∈ o.effects) :
    ∃ before, o.effects = before ++ [.removeDirectory around.removeDirectory] ∧
      ∀ succeeds, .removeDirectory succeeds ∉ before := by
  cases h with
  | refused _ => cases hmake
  | noDirectory hfails =>
      rw [hmade] at hfails
      cases hfails
  | notFetched _ _ _ => exact ⟨[.makeDirectory, .fetch], rfl, by simp⟩
  | notListed _ _ _ _ => exact ⟨[.makeDirectory, .fetch], rfl, by simp⟩
  | finished _ _ _ _ => exact ⟨_, rfl, by simp⟩

end WalkExit

/-- Whether the directory can be removed shows in that one effect only. -/
theorem walk_removal (request : WalkRequest) (around : Surroundings) (succeeds : Bool) :
    (walk request { around with removeDirectory := succeeds }).result =
        (walk request around).result ∧
      (walk request { around with removeDirectory := succeeds }).events =
        (walk request around).events := by
  unfold walk
  by_cases hconcurrency : request.limits.concurrency = 0
  · simp only [if_pos hconcurrency, and_self]
  · by_cases hfiles : request.limits.maxFiles = 0
    · simp only [if_neg hconcurrency, if_pos hfiles, and_self]
    · simp only [if_neg hconcurrency, if_neg hfiles]
      cases around.makeDirectory with
      | error e => exact ⟨rfl, rfl⟩
      | ok _ =>
          cases around.fetch with
          | error e => exact ⟨rfl, rfl⟩
          | ok checkout =>
              dsimp only
              cases checkout.candidates (matchesAny request.limits.excluded) with
              | error e => exact ⟨rfl, rfl⟩
              | ok listed =>
                  refine ⟨rfl, ?_⟩
                  dsimp only
                  rw [WalkOutcome.events_finished, WalkOutcome.events_finished]
                  rfl

/-! ## The protocol -/

/-- A walk comes to a record exactly if its limits leave something to do and its repository can be
fetched and listed. -/
theorem walk_result_ok_iff (request : WalkRequest) (around : Surroundings) :
    (∃ a, (walk request around).result = .ok a) ↔
      request.limits.concurrency ≠ 0 ∧ request.limits.maxFiles ≠ 0 ∧
      ∃ checkout listed, around.Provide checkout ∧
        checkout.candidates (matchesAny request.limits.excluded) = .ok listed := by
  constructor
  · rintro ⟨a, hresult⟩
    have h := walk_exit request around
    generalize walk request around = o at h hresult
    cases h with
    | refused _ => cases hresult
    | noDirectory _ => cases hresult
    | notFetched _ _ _ => cases hresult
    | notListed _ _ _ _ => cases hresult
    | finished hconcurrency hfiles hprovide hlisted =>
        exact ⟨hconcurrency, hfiles, _, _, hprovide, hlisted⟩
  · rintro ⟨hconcurrency, hfiles, checkout, listed, hprovide, hlisted⟩
    exact ⟨_, congrArg WalkOutcome.result (walk_of_candidates (by omega) (by omega) hprovide
      hlisted)⟩

/-- **A walk keeps to its protocol.**  It comes to a record exactly if it can work at all; then it
reports the number of all candidates, its files by the numbers from one on, and the end, which says
what the record says.  A failed walk reports nothing.  The repository is fetched at most once, and
not at all for limits that leave nothing to do.  A directory that was made is removed at the very
end, and whether that succeeds shows in nothing else. -/
theorem walk_keeps_protocol (request : WalkRequest) (around : Surroundings) :
    let o := walk request around
    ((∃ a, o.result = .ok a) ↔
      request.limits.concurrency ≠ 0 ∧ request.limits.maxFiles ≠ 0 ∧
      ∃ checkout listed, around.Provide checkout ∧
        checkout.candidates (matchesAny request.limits.excluded) = .ok listed) ∧
    (∀ a, o.result = .ok a → ∃ (checkout : Checkout) (listed reported : List Candidate),
      around.Provide checkout ∧
      checkout.candidates (matchesAny request.limits.excluded) = .ok listed ∧
      reported.length = a.filesAnalyzed + a.skipped ∧
      o.events = [.start listed.length] ++
        reported.mapIdx
          (fun i c => .file c.path (i + 1) (min listed.length request.limits.maxFiles)) ++
        [if a.cancelled then .cancelled a.filesAnalyzed a.skipped
          else .done a.filesAnalyzed a.skipped]) ∧
    (∀ e, o.result = .error e → o.events = []) ∧
    o.effects.count .fetch ≤ 1 ∧
    (request.limits.concurrency = 0 ∨ request.limits.maxFiles = 0 → .fetch ∉ o.effects) ∧
    (around.makeDirectory = .ok () → .makeDirectory ∈ o.effects →
      ∃ before, o.effects = before ++ [.removeDirectory around.removeDirectory] ∧
        ∀ succeeds, .removeDirectory succeeds ∉ before) ∧
    ∀ succeeds,
      (walk request { around with removeDirectory := succeeds }).result = o.result ∧
      (walk request { around with removeDirectory := succeeds }).events = o.events := by
  intro o
  have hexit : WalkExit request around o := walk_exit request around
  exact ⟨walk_result_ok_iff request around, fun _ => hexit.events_of_ok,
    fun _ => hexit.events_of_error, hexit.count_fetch_le, hexit.effects_of_limits,
    hexit.removal_last, walk_removal request around⟩

/-- A walk that is called off after two of three files reports both of them and the end, and its
directory is removed last; with a repository that cannot be fetched nothing is reported, and the
directory is removed all the same. -/
theorem sample_keeps_protocol :
    let failing := { sampleSurroundings with fetch := .error (.cloneFailure "sample" "gone") }
    let idle := { sampleRequest with limits := { sampleRequest.limits with maxFiles := 0 } }
    (∃ (a : RepositoryAnalysis) (reported : List Candidate),
      (walk sampleRequest sampleSurroundings).result = .ok a ∧
      reported.length = a.filesAnalyzed + a.skipped ∧
      (walk sampleRequest sampleSurroundings).events = [.start 3] ++
        reported.mapIdx (fun i c => .file c.path (i + 1) 3) ++
        [if a.cancelled then .cancelled a.filesAnalyzed a.skipped
          else .done a.filesAnalyzed a.skipped]) ∧
    (walk sampleRequest failing).events = [] ∧
    (∃ before, (walk sampleRequest failing).effects = before ++ [.removeDirectory true]) ∧
    .fetch ∉ (walk idle sampleSurroundings).effects := by
  intro failing idle
  obtain ⟨hok, hreports, -⟩ := walk_keeps_protocol sampleRequest sampleSurroundings
  obtain ⟨-, -, hsilent, -, -, hremoval, -⟩ := walk_keeps_protocol sampleRequest failing
  obtain ⟨-, -, -, -, hidle, -⟩ := walk_keeps_protocol idle sampleSurroundings
  have hlisted : sampleCheckout.candidates (matchesAny sampleRequest.limits.excluded) =
      .ok [⟨"a.js", .javaScript⟩, ⟨"b.py", .python⟩, ⟨"d/e.go", .go⟩] :=
    congrArg Except.ok candidatesOf_sampleTree
  obtain ⟨a, hresult⟩ := hok.2 ⟨by decide, by decide, sampleCheckout, _, ⟨rfl, rfl⟩, hlisted⟩
  obtain ⟨checkout, listed, reported, hprovide, hlists, hlength, hevents⟩ := hreports a hresult
  cases hprovide.2
  rw [hlisted] at hlists
  cases hlists
  obtain ⟨before, hbefore, -⟩ := hremoval rfl List.mem_cons_self
  exact ⟨⟨a, reported, hresult, hlength, hevents⟩, hsilent _ rfl, ⟨before, hbefore⟩,
    hidle (Or.inr rfl)⟩

end CodeSurvey
