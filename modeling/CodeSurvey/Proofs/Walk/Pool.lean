/-
# What a pool can do, and that it comes to its end

Every fact about a pool is an invariant, and every invariant needs the same case analysis: what can
one action make of a pool?  `Step` answers that once, guards included, and `step_act` says that
`Pool.act` does nothing else.  An invariant is then one case for each constructor, and
`actAll_induction` carries it along any list of actions.

The running file that moves is singled out by what stands before and behind it, not by its place:
`front ++ j :: back` is what the counts and permutations of the other modules want to see.

A run that is left to itself only does actions that could as well have been decided from outside
(`run_eq_actAll`), so nothing needs to be proved of it twice.  That it ends is a matter of work
left: a waiting file has four steps ahead of it, a fresh one three, one with bytes reserved two and
one that is done its handing over; an open pool still has to close (`run_isDone`).
-/
import CodeSurvey.Walk.Pool

namespace CodeSurvey

theorem split_of_getElem? {α : Type} {place : Nat} {x : α} :
    ∀ {l : List α}, l[place]? = some x →
      ∃ front back, l = front ++ x :: back ∧ place = front.length := by
  intro l h
  obtain ⟨hlt, rfl⟩ := List.getElem?_eq_some_iff.1 h
  refine ⟨l.take place, l.drop (place + 1), ?_, ?_⟩
  · rw [List.getElem_cons_drop, List.take_append_drop]
  · rw [List.length_take, Nat.min_eq_left (Nat.le_of_lt hlt)]

namespace Job

@[simp] theorem advance_candidate (rules : PoolRules) (reserved : UInt64) (j : Job) :
    (j.advance rules reserved).1.candidate = j.candidate := by
  unfold advance
  split
  · split
    · rfl
    · split <;> rfl
  · rfl
  · rfl

/-- What a file carries is what was asked of the surroundings: bytes are reserved for a size that
could be told and is not too large, and an analysis is that of the bytes read. -/
def Sound (rules : PoolRules) (j : Job) : Prop :=
  match j.stage with
  | .fresh => True
  | .reserved size => rules.wanted? j.candidate = some size
  | .ended _ none => True
  | .ended size (some f) => rules.wanted? j.candidate = some size ∧
      ∃ bytes, rules.access.read? j.candidate.path = some bytes ∧
        f = j.candidate.analysis rules.time bytes

theorem Sound.advance {rules : PoolRules} {j : Job} (reserved : UInt64) (h : j.Sound rules) :
    (j.advance rules reserved).1.Sound rules := by
  obtain ⟨c, stage⟩ := j
  cases stage with
  | fresh =>
      simp only [Job.advance]
      split
      · trivial
      · rename_i size hwanted
        split
        · trivial
        · exact hwanted
  | reserved size =>
      simp only [Job.advance]
      cases hread : rules.access.read? c.path with
      | none => trivial
      | some bytes => exact ⟨h, bytes, hread, rfl⟩
  | ended size outcome => exact h

theorem Sound.of_analysis {rules : PoolRules} {j : Job} {f : FileAnalysis} (h : j.Sound rules)
    (hf : j.analysis? = some f) :
    rules.wanted? j.candidate = some j.reservedBytes ∧
      ∃ bytes, rules.access.read? j.candidate.path = some bytes ∧
        f = j.candidate.analysis rules.time bytes := by
  obtain ⟨c, stage⟩ := j
  cases stage with
  | fresh => cases hf
  | reserved size => cases hf
  | ended size outcome =>
      cases hf
      exact h

theorem stage_of_isEnded {j : Job} (h : j.isEnded = true) :
    ∃ bytes, j.stage = .ended bytes j.analysis? := by
  obtain ⟨c, stage⟩ := j
  cases stage with
  | fresh => cases h
  | reserved size => cases h
  | ended size outcome => exact ⟨size, rfl⟩

/-- The steps that a started file has ahead of it, with its handing over. -/
def stepsLeft (j : Job) : Nat :=
  match j.stage with
  | .fresh => 3
  | .reserved _ => 2
  | .ended _ _ => 1

theorem one_le_stepsLeft (j : Job) : 1 ≤ j.stepsLeft := by
  unfold stepsLeft
  split <;> omega

theorem stepsLeft_le_three (j : Job) : j.stepsLeft ≤ 3 := by
  unfold stepsLeft
  split <;> omega

theorem stepsLeft_advance_lt (rules : PoolRules) (reserved : UInt64) {j : Job}
    (h : j.isEnded = false) : (j.advance rules reserved).1.stepsLeft < j.stepsLeft := by
  obtain ⟨c, stage⟩ := j
  cases stage with
  | fresh =>
      simp only [advance]
      split
      · simp [stepsLeft]
      · split <;> simp [stepsLeft]
  | reserved bytes => simp [advance, stepsLeft]
  | ended bytes outcome => simp [isEnded] at h

end Job

namespace Pool

/-! ## Steps -/

/-- What an action can make of a pool. -/
inductive Step (rules : PoolRules) (p : Pool) : PoolAction → Pool → Prop
  /-- The action is not possible. -/
  | idle {a : PoolAction} : a ≠ .callOff →
      (∀ place, a = .advance place → p.running[place]? = none) → Step rules p a p
  | close : p.canPull rules = true → p.waiting = [] ∨ p.calledOff = true →
      Step rules p .pull { p with closed := true }
  | start {c : Candidate} {rest : List Candidate} : p.canPull rules = true →
      p.calledOff = false → p.waiting = c :: rest →
      Step rules p .pull { p with waiting := rest, running := p.running ++ [⟨c, .fresh⟩] }
  | advance {front back : List Job} {j : Job} : p.running = front ++ j :: back →
      Step rules p (.advance front.length)
        { p with
          running := front ++ (j.advance rules p.bytesRead).1 :: back
          bytesRead := (j.advance rules p.bytesRead).2 }
  | handOver {front back : List Job} {j : Job} : p.canPull rules = false →
      p.running = front ++ j :: back → j.isEnded = true →
      Step rules p (.handOver front.length)
        { p with
          running := front ++ back
          finished := p.finished ++ [j]
          calledOff := p.calledOff || rules.calledOffAt (p.finished.length + 1) }
  | callOff : Step rules p .callOff { p with calledOff := true }

theorem step_pull {rules : PoolRules} {p : Pool} (h : p.canPull rules = true) :
    Step rules p .pull p.pull := by
  unfold pull
  split
  · rename_i hw
    exact .close h (Or.inl hw)
  · rename_i c rest hw
    split
    · rename_i hc
      exact .close h (Or.inr hc)
    · rename_i hc
      exact .start h (Bool.eq_false_iff.2 hc) hw

theorem step_advance (rules : PoolRules) (p : Pool) (place : Nat) :
    Step rules p (.advance place) (p.advance rules place) := by
  unfold Pool.advance
  split
  · rename_i hnone
    refine .idle nofun ?_
    rintro _ ⟨⟩
    exact hnone
  · rename_i j hj
    obtain ⟨front, back, hsplit, rfl⟩ := split_of_getElem? hj
    have h : Step rules p _ _ := .advance hsplit
    simpa [hsplit] using h

theorem step_handOver {rules : PoolRules} {p : Pool} (h : p.canPull rules = false) (place : Nat) :
    Step rules p (.handOver place) (p.handOver rules place) := by
  unfold Pool.handOver
  split
  · exact .idle nofun nofun
  · rename_i j hj
    split
    · rename_i hended
      obtain ⟨front, back, hsplit, rfl⟩ := split_of_getElem? hj
      have hstep : Step rules p _ _ := .handOver h hsplit hended
      simpa [hsplit, List.eraseIdx_append_of_length_le] using hstep
    · exact .idle nofun nofun

/-- An action does what `Step` says, and nothing else. -/
theorem step_act (rules : PoolRules) (p : Pool) (a : PoolAction) :
    Step rules p a (p.act rules a) := by
  cases a with
  | pull =>
      by_cases h : p.canPull rules = true
      · rw [act, if_pos h]
        exact step_pull h
      · rw [act, if_neg h]
        exact .idle nofun nofun
  | advance place => exact step_advance rules p place
  | handOver place =>
      by_cases h : p.canPull rules = true
      · rw [act, if_pos h]
        exact .idle nofun nofun
      · rw [act, if_neg h]
        exact step_handOver (Bool.eq_false_iff.2 h) place
  | callOff => exact .callOff

/-- The flag is never lowered. -/
theorem Step.calledOff_of {rules : PoolRules} {p q : Pool} {a : PoolAction}
    (h : Step rules p a q) (hp : p.calledOff = true) : q.calledOff = true := by
  cases h with
  | idle _ _ => exact hp
  | close _ _ => exact hp
  | start _ _ _ => exact hp
  | advance _ => exact hp
  | handOver _ _ _ => simp [hp]
  | callOff => rfl

theorem Step.calledOff_iff {rules : PoolRules} {p q : Pool} {a : PoolAction} {off : Bool}
    (h : Step rules p a q) (ha : a ≠ .callOff)
    (hp : p.calledOff = true ↔
      off = true ∨ ∃ m, 1 ≤ m ∧ m ≤ p.finished.length ∧ rules.calledOffAt m = true) :
    q.calledOff = true ↔
      off = true ∨ ∃ m, 1 ≤ m ∧ m ≤ q.finished.length ∧ rules.calledOffAt m = true := by
  cases h with
  | idle _ _ => exact hp
  | close _ _ => exact hp
  | start _ _ _ => exact hp
  | advance _ => exact hp
  | callOff => exact absurd rfl ha
  | @handOver front back j _ _ _ =>
      simp only [Bool.or_eq_true, hp, List.length_append, List.length_singleton]
      constructor
      · rintro ((hoff | ⟨m, hm, hle, hat⟩) | hat)
        · exact Or.inl hoff
        · exact Or.inr ⟨m, hm, by omega, hat⟩
        · exact Or.inr ⟨_, by omega, Nat.le_refl _, hat⟩
      · rintro (hoff | ⟨m, hm, hle, hat⟩)
        · exact Or.inl (Or.inl hoff)
        · rcases Nat.lt_or_ge p.finished.length m with hlt | hge
          · have hlast : m = p.finished.length + 1 := by omega
            exact Or.inr (hlast ▸ hat)
          · exact Or.inl (Or.inr ⟨m, hm, hge, hat⟩)

/-- What was handed over stays handed over, in its order. -/
theorem Step.finished_prefix {rules : PoolRules} {p q : Pool} {a : PoolAction}
    (h : Step rules p a q) : p.finished <+: q.finished := by
  cases h with
  | idle _ _ => exact List.prefix_refl _
  | close _ _ => exact List.prefix_refl _
  | start _ _ _ => exact List.prefix_refl _
  | advance _ => exact List.prefix_refl _
  | handOver _ _ _ => exact List.prefix_append _ _
  | callOff => exact List.prefix_refl _

/-! ## The files of a pool -/

/-- The files that were started. -/
def jobs (p : Pool) : List Job := p.running ++ p.finished

/-- What holds of a fresh file and is kept by a file's own steps holds of every file started. -/
theorem Step.forall_jobs {rules : PoolRules} {p q : Pool} {a : PoolAction} {P : Job → Prop}
    (hfresh : ∀ c, P ⟨c, .fresh⟩)
    (hadvance : ∀ j ∈ p.running, P j → P (j.advance rules p.bytesRead).1)
    (h : Step rules p a q) (hp : ∀ j ∈ p.jobs, P j) : ∀ j ∈ q.jobs, P j := by
  cases h with
  | idle _ _ => exact hp
  | close _ _ => exact hp
  | callOff => exact hp
  | start _ _ _ =>
      intro j hj
      simp only [jobs, List.append_assoc, List.singleton_append, List.mem_append,
        List.mem_cons] at hj
      rcases hj with hj | rfl | hj
      · exact hp j (List.mem_append_left _ hj)
      · exact hfresh _
      · exact hp j (List.mem_append_right _ hj)
  | advance hr =>
      simp only [jobs, hr, List.append_assoc, List.cons_append, List.mem_append,
        List.mem_cons] at hp hadvance ⊢
      rintro j (hj | rfl | hj)
      · exact hp j (Or.inl hj)
      · exact hadvance _ (Or.inr (Or.inl rfl)) (hp _ (Or.inr (Or.inl rfl)))
      · exact hp j (Or.inr (Or.inr hj))
  | handOver _ hr _ =>
      intro j hj
      refine hp j ?_
      simp only [jobs, hr, List.append_assoc, List.cons_append, List.mem_append, List.mem_cons,
        List.not_mem_nil, or_false] at hj ⊢
      rcases hj with hj | hj | hj | hj
      · exact Or.inl hj
      · exact Or.inr (Or.inr (Or.inl hj))
      · exact Or.inr (Or.inr (Or.inr hj))
      · exact Or.inr (Or.inl hj)

/-- Only a file that is done is handed over. -/
theorem Step.forall_finished_ended {rules : PoolRules} {p q : Pool} {a : PoolAction}
    (h : Step rules p a q) (hp : ∀ j ∈ p.finished, j.isEnded = true) :
    ∀ j ∈ q.finished, j.isEnded = true := by
  cases h with
  | idle _ _ => exact hp
  | close _ _ => exact hp
  | start _ _ _ => exact hp
  | advance _ => exact hp
  | callOff => exact hp
  | handOver _ _ hended =>
      intro j hj
      rcases List.mem_append.1 hj with hj | hj
      · exact hp j hj
      · rw [List.mem_singleton.1 hj]
        exact hended

/-! ## Runs -/

theorem actAll_cons (rules : PoolRules) (p : Pool) (a : PoolAction) (rest : List PoolAction) :
    p.actAll rules (a :: rest) = (p.act rules a).actAll rules rest := rfl

theorem actAll_append (rules : PoolRules) (p : Pool) (first second : List PoolAction) :
    p.actAll rules (first ++ second) = (p.actAll rules first).actAll rules second :=
  List.foldl_append

/-- What every step keeps, a run keeps.  Steps are only asked about the actions of the run. -/
theorem actAll_induction {rules : PoolRules} {I : Pool → Prop} {actions : List PoolAction}
    (hstep : ∀ a ∈ actions, ∀ p q, I p → Step rules p a q → I q) :
    ∀ {p : Pool}, I p → I (p.actAll rules actions) := by
  induction actions with
  | nil => exact fun h => h
  | cons a rest ih =>
      intro p h
      rw [actAll_cons]
      refine ih (fun b hb => hstep b (List.mem_cons_of_mem _ hb)) ?_
      exact hstep a List.mem_cons_self p _ h (step_act rules p a)

theorem actAll_finished_prefix (rules : PoolRules) (p : Pool) (actions : List PoolAction) :
    p.finished <+: (p.actAll rules actions).finished :=
  actAll_induction (I := fun q => p.finished <+: q.finished)
    (fun _ _ _ _ h hs => h.trans hs.finished_prefix) (List.prefix_refl _)

theorem sound_of_start (rules : PoolRules) (candidates : List Candidate) (calledOff : Bool)
    (actions : List PoolAction) :
    ∀ j ∈ ((start candidates calledOff).actAll rules actions).jobs, j.Sound rules := by
  refine actAll_induction (I := fun p => ∀ j ∈ p.jobs, j.Sound rules) ?_ ?_
  · intro _ _ p q hp hs
    exact hs.forall_jobs (fun _ => trivial) (fun _ _ h => h.advance p.bytesRead) hp
  · exact fun _ hj => absurd hj List.not_mem_nil

theorem ended_of_start (rules : PoolRules) (candidates : List Candidate) (calledOff : Bool)
    (actions : List PoolAction) :
    ∀ j ∈ ((start candidates calledOff).actAll rules actions).finished, j.isEnded = true :=
  actAll_induction (I := fun p => ∀ j ∈ p.finished, j.isEnded = true)
    (fun _ _ _ _ hp hs => hs.forall_finished_ended hp) (fun _ hj => absurd hj List.not_mem_nil)

theorem nextAction_ne_callOff (rules : PoolRules) (p : Pool) :
    p.nextAction rules ≠ .callOff := by
  unfold nextAction
  split
  · nofun
  · split
    · split <;> nofun
    · nofun

theorem finish_eq_actAll (rules : PoolRules) : ∀ (fuel : Nat) (p : Pool),
    ∃ actions, PoolAction.callOff ∉ actions ∧ p.finish rules fuel = p.actAll rules actions
  | 0, _ => ⟨[], List.not_mem_nil, rfl⟩
  | fuel + 1, p => by
      rw [finish]
      split
      · exact ⟨[], List.not_mem_nil, rfl⟩
      · obtain ⟨actions, hnot, h⟩ := finish_eq_actAll rules fuel (p.act rules (p.nextAction rules))
        refine ⟨p.nextAction rules :: actions, ?_, h⟩
        rw [List.mem_cons, not_or]
        exact ⟨(nextAction_ne_callOff rules p).symm, hnot⟩

theorem run_eq_actAll (rules : PoolRules) (p : Pool) (actions : List PoolAction) :
    ∃ more, PoolAction.callOff ∉ more ∧
      p.run rules actions = p.actAll rules (actions ++ more) := by
  obtain ⟨more, hnot, h⟩ :=
    finish_eq_actAll rules (p.actAll rules actions).stepsLeft (p.actAll rules actions)
  exact ⟨more, hnot, h.trans (actAll_append rules p actions more).symm⟩

/-! ## The end of a run -/

/-- The steps that a pool has ahead of it at most when nobody decides. -/
def workLeft (p : Pool) : Nat :=
  4 * p.waiting.length + Count.total (p.running.map Job.stepsLeft) + if p.closed then 0 else 1

theorem total_stepsLeft_le (jobs : List Job) :
    Count.total (jobs.map Job.stepsLeft) ≤ 3 * jobs.length := by
  induction jobs with
  | nil => exact Nat.le_refl _
  | cons j rest ih =>
      have hj := j.stepsLeft_le_three
      simp only [List.map_cons, Count.total_cons, List.length_cons]
      omega

/-- The bound that a run starts from is enough. -/
theorem workLeft_le_stepsLeft (p : Pool) : p.workLeft ≤ p.stepsLeft := by
  have h := total_stepsLeft_le p.running
  unfold workLeft stepsLeft
  split <;> omega

theorem isDone_of_workLeft_eq_zero {p : Pool} (h : p.workLeft = 0) : p.isDone = true := by
  unfold workLeft at h
  have hclosed : p.closed = true := by
    by_cases hc : p.closed = true
    · exact hc
    · rw [if_neg hc] at h
      omega
  have hrunning : p.running = [] := by
    cases hr : p.running with
    | nil => rfl
    | cons j rest =>
        have hj := j.one_le_stepsLeft
        simp only [hr, List.map_cons, Count.total_cons] at h
        omega
  simp [isDone, hclosed, hrunning]

theorem closed_of_canPull {rules : PoolRules} {p : Pool} (h : p.canPull rules = true) :
    p.closed = false := by
  simp only [canPull, Bool.and_eq_true, Bool.not_eq_true'] at h
  exact h.1

theorem workLeft_pull_lt {rules : PoolRules} {p : Pool} (h : p.canPull rules = true) :
    p.pull.workLeft < p.workLeft := by
  have hclosed := closed_of_canPull h
  unfold pull
  split
  · simp [workLeft, hclosed]
  · rename_i c rest hw
    split
    · simp [workLeft, hclosed]
    · simp only [workLeft, hw, List.map_append, Count.total_append, List.length_cons]
      simp only [List.map_cons, List.map_nil, Count.total_cons, Count.total_nil, Job.stepsLeft]
      omega

/-- As long as a pool is not done, what happens when nobody decides brings it closer to its end.
Without room for a single file an open pool would wait forever. -/
theorem workLeft_nextAction_lt {rules : PoolRules} {p : Pool}
    (hc : 1 ≤ rules.limits.concurrency) (h : p.isDone = false) :
    (p.act rules (p.nextAction rules)).workLeft < p.workLeft := by
  unfold nextAction
  split
  · rename_i hpull
    rw [act, if_pos hpull]
    exact workLeft_pull_lt hpull
  · rename_i hpull
    split
    · rename_i j rest hr
      split
      · rename_i hended
        rw [act, if_neg hpull]
        have hj := j.one_le_stepsLeft
        simp only [handOver, hr, List.getElem?_cons_zero, if_pos hended, workLeft,
          List.eraseIdx_cons_zero, List.map_cons, Count.total_cons]
        omega
      · rename_i hended
        have hj := j.stepsLeft_advance_lt rules p.bytesRead (Bool.eq_false_iff.2 hended)
        simp only [act, Pool.advance, hr, List.getElem?_cons_zero, workLeft, List.set_cons_zero,
          List.map_cons, Count.total_cons]
        omega
    · rename_i hr
      exfalso
      simp only [canPull, hr, List.length_nil, Bool.and_eq_true, Bool.not_eq_true',
        decide_eq_true_eq, not_and, Nat.not_lt] at hpull
      simp only [isDone, hr, List.isEmpty_nil, Bool.and_true] at h
      have := hpull h
      omega

theorem finish_isDone {rules : PoolRules} (hc : 1 ≤ rules.limits.concurrency) :
    ∀ (fuel : Nat) {p : Pool}, p.workLeft ≤ fuel → (p.finish rules fuel).isDone = true
  | 0, _, h => isDone_of_workLeft_eq_zero (Nat.le_zero.1 h)
  | fuel + 1, p, h => by
      rw [finish]
      split
      · rename_i hdone
        exact hdone
      · rename_i hdone
        have hlt := workLeft_nextAction_lt hc (Bool.eq_false_iff.2 hdone)
        exact finish_isDone hc fuel (by omega)

/-- A run comes to its end, whatever was decided from outside. -/
theorem run_isDone {rules : PoolRules} (hc : 1 ≤ rules.limits.concurrency) (p : Pool)
    (actions : List PoolAction) : (p.run rules actions).isDone = true :=
  finish_isDone hc _ (workLeft_le_stepsLeft _)

theorem closed_of_isDone {p : Pool} (h : p.isDone = true) : p.closed = true := by
  simp only [isDone, Bool.and_eq_true] at h
  exact h.1

theorem running_eq_nil_of_isDone {p : Pool} (h : p.isDone = true) : p.running = [] := by
  simp only [isDone, Bool.and_eq_true, List.isEmpty_iff] at h
  exact h.2

end Pool

end CodeSurvey
