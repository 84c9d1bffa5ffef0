/-
# A pool accounts for each of its files

A pool takes its files off the front of a list and hands them over in any order, so what it has
done so far is told by two lists: the files it was given are those that were started, in their
order, and then those that wait; and the files in flight together with those handed over are the
ones that were started, in some order (`Accounted`).  Both halves are kept by every step.

A file that was handed over is one entry among the analyses or one unit of the skipped, never both
and never neither (`files_passedOver_perm`).  At the end nothing is in flight, and a pool that is
closed while files wait was called off; so a pool that has come to its end was cut short exactly
when it left files out (`Accounted.cutShort_iff`).
-/
import CodeSurvey.Proofs.Walk.Pool
import CodeSurvey.Walk

namespace CodeSurvey

def FileAnalysis.candidate (f : FileAnalysis) : Candidate := ⟨f.path, f.language⟩

@[simp] theorem Candidate.candidate_analysis (c : Candidate) (time : String)
    (bytes : List UInt8) : (c.analysis time bytes).candidate = c := rfl

theorem Job.Sound.candidate_eq {rules : PoolRules} {j : Job} {f : FileAnalysis}
    (h : j.Sound rules) (hf : j.analysis? = some f) : f.candidate = j.candidate := by
  obtain ⟨_, bytes, _, hbytes⟩ := h.of_analysis hf
  rw [hbytes, Candidate.candidate_analysis]

namespace Pool

/-! ## What was started -/

/-- The files that a pool was given are those it started and those that wait. -/
structure Accounted (rules : PoolRules) (admitted : List Candidate) (p : Pool) : Prop where
  started : ∃ first, admitted = first ++ p.waiting ∧ (p.jobs.map Job.candidate).Perm first
  running_le : p.running.length ≤ rules.limits.concurrency
  /-- A pool is closed for one of two reasons. -/
  closed : p.closed = true → p.waiting = [] ∨ p.calledOff = true

theorem accounted_start (rules : PoolRules) (admitted : List Candidate) (calledOff : Bool) :
    Accounted rules admitted (start admitted calledOff) where
  started := ⟨[], rfl, .nil⟩
  running_le := Nat.zero_le _
  closed := nofun

/-- Handing a file over moves it from the files in flight to those handed over. -/
theorem jobs_handOver_perm (front back finished : List Job) (j : Job) :
    (front ++ back ++ (finished ++ [j])).Perm (front ++ j :: back ++ finished) := by
  have h : (finished ++ [j]).Perm (j :: finished) := List.perm_append_singleton j finished
  calc front ++ back ++ (finished ++ [j])
      _ = front ++ (back ++ (finished ++ [j])) := List.append_assoc _ _ _
      (front ++ (back ++ (finished ++ [j]))).Perm (front ++ (back ++ j :: finished)) :=
          (h.append_left back).append_left front
      List.Perm _ (front ++ j :: (back ++ finished)) := List.perm_middle.append_left front
      _ = front ++ j :: back ++ finished := by rw [List.append_assoc, List.cons_append]

theorem Accounted.step {rules : PoolRules} {admitted : List Candidate} {p q : Pool}
    {a : PoolAction} (h : Accounted rules admitted p) (hs : Step rules p a q) :
    Accounted rules admitted q := by
  obtain ⟨⟨first, hfirst, hperm⟩, hrunning, hclosed⟩ := h
  cases hs with
  | idle _ _ => exact ⟨⟨first, hfirst, hperm⟩, hrunning, hclosed⟩
  | close _ hwhy => exact ⟨⟨first, hfirst, hperm⟩, hrunning, fun _ => hwhy⟩
  | @start c rest hpull hoff hw =>
      simp only [canPull, Bool.and_eq_true, Bool.not_eq_true', decide_eq_true_eq] at hpull
      refine ⟨⟨first ++ [c], ?_, ?_⟩, ?_, ?_⟩
      · rw [hfirst, hw, List.append_assoc, List.singleton_append]
      · have hmiddle : ((p.running ++ [Job.mk c .fresh] ++ p.finished).map Job.candidate).Perm
            (c :: p.jobs.map Job.candidate) := by
          simp only [jobs, List.map_append, List.map_cons, List.append_assoc,
            List.singleton_append]
          exact List.perm_middle
        exact hmiddle.trans ((hperm.cons c).trans (List.perm_append_singleton c first).symm)
      · rw [List.length_append, List.length_singleton]
        exact hpull.2
      · intro hcl
        rw [hpull.1] at hcl
        cases hcl
  | @advance front back j hr =>
      refine ⟨⟨first, hfirst, ?_⟩, ?_, hclosed⟩
      · simpa [jobs, hr] using hperm
      · simpa [hr] using hrunning
  | @handOver front back j hpull hr hended =>
      refine ⟨⟨first, hfirst, ?_⟩, ?_, ?_⟩
      · have hjobs := (jobs_handOver_perm front back p.finished j).map Job.candidate
        rw [jobs, hr] at hperm
        exact hjobs.trans hperm
      · simp only [hr, List.length_append, List.length_cons] at hrunning ⊢
        omega
      · intro hcl
        rcases hclosed hcl with hnil | hoff
        · exact Or.inl hnil
        · exact Or.inr (by simp [hoff])
  | callOff => exact ⟨⟨first, hfirst, hperm⟩, hrunning, fun _ => Or.inr rfl⟩

theorem Accounted.actAll {rules : PoolRules} {admitted : List Candidate} {p : Pool}
    (h : Accounted rules admitted p) (actions : List PoolAction) :
    Accounted rules admitted (p.actAll rules actions) :=
  actAll_induction (fun _ _ _ _ hp hs => hp.step hs) h

section Accounted

variable {rules : PoolRules} {admitted : List Candidate} {p : Pool}

theorem length_jobs (p : Pool) : p.jobs.length = p.startedCount := List.length_append

theorem Accounted.take_drop (h : Accounted rules admitted p) :
    (p.jobs.map Job.candidate).Perm (admitted.take p.startedCount) ∧
      p.waiting = admitted.drop p.startedCount := by
  obtain ⟨first, hfirst, hperm⟩ := h.started
  have hlen : p.startedCount = first.length := by
    rw [← p.length_jobs, ← hperm.length_eq, List.length_map]
  rw [hlen, hfirst, List.take_left, List.drop_left]
  exact ⟨hperm, rfl⟩

theorem Accounted.startedCount_add (h : Accounted rules admitted p) :
    p.startedCount + p.waiting.length = admitted.length := by
  obtain ⟨first, hfirst, hperm⟩ := h.started
  rw [hfirst, List.length_append, ← hperm.length_eq, List.length_map, p.length_jobs]

end Accounted

/-! ## What was handed over -/

/-- The candidates of the files that were handed over without an analysis. -/
def passedOver (p : Pool) : List Candidate :=
  (p.finished.filter (·.analysis?.isNone)).map Job.candidate

theorem length_passedOver (p : Pool) : p.passedOver.length = p.skipped := by
  rw [passedOver, List.length_map, skipped, List.countP_eq_length_filter]

theorem analyzed_or_not_perm {rules : PoolRules} :
    ∀ {jobs : List Job}, (∀ j ∈ jobs, j.Sound rules) →
      ((jobs.filterMap Job.analysis?).map FileAnalysis.candidate ++
        (jobs.filter (·.analysis?.isNone)).map Job.candidate).Perm (jobs.map Job.candidate)
  | [], _ => .nil
  | j :: rest, hsound => by
      have ih := analyzed_or_not_perm (fun i hi => hsound i (List.mem_cons_of_mem j hi))
      cases hj : j.analysis? with
      | none =>
          simp only [List.filterMap_cons_none hj, List.filter_cons, hj, Option.isNone_none, if_true,
            List.map_cons]
          exact List.perm_middle.trans (ih.cons j.candidate)
      | some f =>
          have hname := (hsound j List.mem_cons_self).candidate_eq hj
          simp only [List.filterMap_cons_some hj, List.filter_cons, hj, Option.isNone_some,
            Bool.false_eq_true, if_false, List.map_cons, List.cons_append, hname]
          exact ih.cons j.candidate

theorem files_passedOver_perm {rules : PoolRules} {p : Pool} (h : ∀ j ∈ p.jobs, j.Sound rules) :
    (p.files.map FileAnalysis.candidate ++ p.passedOver).Perm (p.finished.map Job.candidate) :=
  analyzed_or_not_perm (fun j hj => h j (List.mem_append_right _ hj))

theorem length_files_add_skipped (p : Pool) :
    p.files.length + p.skipped = p.finished.length := by
  unfold files skipped
  induction p.finished with
  | nil => rfl
  | cons j rest ih =>
      cases hj : j.analysis? with
      | none =>
          simp only [List.filterMap_cons_none hj, List.countP_cons, hj, Option.isNone_none, if_true,
            List.length_cons]
          omega
      | some f =>
          simp only [List.filterMap_cons_some hj, List.countP_cons, hj, Option.isNone_some,
            Bool.false_eq_true, if_false, List.length_cons]
          omega

/-- A pool keeps account of the files that a walk works off. -/
structure KeepsAccount (rules : PoolRules) (admitted : List Candidate) (p : Pool) : Prop where
  /-- What waits is what stands behind the files started. -/
  waiting_eq : p.waiting = admitted.drop p.startedCount
  /-- Each file started is in flight, or one entry among the analyses, or one of the skipped. -/
  once : (p.running.map Job.candidate ++
    (p.files.map FileAnalysis.candidate ++ p.passedOver)).Perm (admitted.take p.startedCount)
  length_passedOver : p.passedOver.length = p.skipped
  running_le : p.running.length ≤ rules.limits.concurrency

theorem Accounted.keepsAccount {rules : PoolRules} {admitted : List Candidate} {p : Pool}
    (h : Accounted rules admitted p) (hsound : ∀ j ∈ p.jobs, j.Sound rules) :
    KeepsAccount rules admitted p where
  waiting_eq := h.take_drop.2
  once := by
    have hover := (files_passedOver_perm hsound).append_left (p.running.map Job.candidate)
    rw [← List.map_append] at hover
    exact hover.trans h.take_drop.1
  length_passedOver := p.length_passedOver
  running_le := h.running_le

/-! ## The end of a pool -/

section Done

variable {rules : PoolRules} {admitted : List Candidate} {p : Pool}

theorem startedCount_of_isDone (h : p.isDone = true) : p.startedCount = p.finished.length := by
  rw [startedCount, running_eq_nil_of_isDone h, List.length_nil, Nat.zero_add]

/-- At the end the files handed over are the first ones, and no others were started. -/
theorem Accounted.finished_perm (h : Accounted rules admitted p) (hdone : p.isDone = true) :
    (p.finished.map Job.candidate).Perm (admitted.take p.startedCount) := by
  have hperm := h.take_drop.1
  rw [jobs, running_eq_nil_of_isDone hdone, List.nil_append] at hperm
  exact hperm

theorem Accounted.startedCount_of_not_calledOff (h : Accounted rules admitted p)
    (hdone : p.isDone = true) (hoff : p.calledOff = false) : p.startedCount = admitted.length := by
  have hsum := h.startedCount_add
  rcases h.closed (closed_of_isDone hdone) with hnil | hon
  · rw [hnil, List.length_nil] at hsum
    exact hsum
  · rw [hoff] at hon
    cases hon

theorem Accounted.cutShort_iff (h : Accounted rules admitted p) (hdone : p.isDone = true) :
    p.cutShort admitted.length = true ↔ p.startedCount < admitted.length := by
  simp only [cutShort, Bool.and_eq_true, decide_eq_true_eq, and_iff_right_iff_imp]
  intro hlt
  rcases Bool.eq_false_or_eq_true p.calledOff with hon | hoff
  · exact hon
  · have hall := h.startedCount_of_not_calledOff hdone hoff
    omega

end Done

end Pool

end CodeSurvey
