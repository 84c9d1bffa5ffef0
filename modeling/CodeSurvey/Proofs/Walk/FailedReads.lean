/-
# Bytes that failed reads keep

A file reserves its bytes before it is read, and they are not given back when the reading fails.  So
the bytes read count three things: the bytes of the files that were read, those of the files that
are about to be, and those that went to files that could not be read (`Pool.bytesRead_eq`).  The
last never get less (`Pool.lostBytes_le_actAll`).

So the count is that of the files read and in flight exactly as long as no reading has failed, and a
later file is refused for the budget as if the files that could not be read had been.
-/
import CodeSurvey.Proofs.Walk.Budget

namespace CodeSurvey

/-! ## The bytes of a file -/

namespace Job

def readBytes (j : Job) : Nat :=
  match j.stage with
  | .ended bytes (some _) => bytes.toNat
  | _ => 0

def inFlightBytes (j : Job) : Nat :=
  match j.stage with
  | .reserved bytes => bytes.toNat
  | _ => 0

/-- The bytes that a file keeps though it was skipped. -/
def lostBytes (j : Job) : Nat :=
  match j.stage with
  | .ended bytes none => bytes.toNat
  | _ => 0

/-- A file asked for bytes, and could not be read. -/
def FailsToRead (rules : PoolRules) (j : Job) : Prop :=
  (∃ size, rules.wanted? j.candidate = some size ∧ j.lostBytes = size.toNat) ∧
    rules.access.read? j.candidate.path = none

theorem reservedBytes_eq (j : Job) :
    j.reservedBytes.toNat = j.readBytes + j.inFlightBytes + j.lostBytes := by
  obtain ⟨c, stage⟩ := j
  cases stage with
  | fresh => rfl
  | reserved bytes => exact (Nat.zero_add _).symm
  | ended bytes outcome =>
      cases outcome with
      | some f => rfl
      | none => exact (Nat.zero_add _).symm

/-- What a file lost it does not get back. -/
theorem lostBytes_le_advance (rules : PoolRules) (reserved : UInt64) (j : Job) :
    j.lostBytes ≤ (j.advance rules reserved).1.lostBytes := by
  obtain ⟨c, stage⟩ := j
  cases stage with
  | fresh => exact Nat.zero_le _
  | reserved bytes => exact Nat.zero_le _
  | ended bytes outcome => exact Nat.le_refl _

/-- A file loses bytes by a reading that fails, and by nothing else. -/
theorem Sound.lostBytes_advance {rules : PoolRules} {j : Job} (hsound : j.Sound rules)
    (reserved : UInt64) (h : j.lostBytes ≠ 0 → j.FailsToRead rules)
    (hlost : (j.advance rules reserved).1.lostBytes ≠ 0) :
    (j.advance rules reserved).1.FailsToRead rules := by
  obtain ⟨c, stage⟩ := j
  cases stage with
  | ended bytes outcome => exact h hlost
  | fresh =>
      -- a file that is refused ends without bytes
      refine absurd ?_ hlost
      simp only [Job.advance]
      split
      · rfl
      · split <;> rfl
  | reserved size =>
      have hwanted : rules.wanted? c = some size := hsound
      cases hread : rules.access.read? c.path with
      | some bytes =>
          simp only [Job.advance, hread, Option.map_some, lostBytes, ne_eq,
            not_true_eq_false] at hlost
      | none =>
          refine ⟨⟨size, hwanted, ?_⟩, hread⟩
          simp only [Job.advance, hread, Option.map_none, lostBytes]

end Job

namespace Pool

/-! ## The bytes of a pool -/

def readBytes (p : Pool) : Nat := Count.total (p.jobs.map Job.readBytes)

def inFlightBytes (p : Pool) : Nat := Count.total (p.jobs.map Job.inFlightBytes)

/-- The bytes that skipped files keep. -/
def lostBytes (p : Pool) : Nat := Count.total (p.jobs.map Job.lostBytes)

section Bytes

variable {rules : PoolRules} {p q : Pool}

theorem total_reservedBytes (jobs : List Job) :
    Count.total (jobs.map (·.reservedBytes.toNat)) = Count.total (jobs.map Job.readBytes) +
      Count.total (jobs.map Job.inFlightBytes) + Count.total (jobs.map Job.lostBytes) := by
  induction jobs with
  | nil => rfl
  | cons j jobs ih =>
      simp only [List.map_cons, Count.total_cons, ih, j.reservedBytes_eq]
      omega

/-- **The bytes read are those of files read, in flight and lost.** -/
theorem Booked.bytesRead_eq {log : List Reservation} (h : Booked rules log p) :
    p.bytesRead.toNat = p.readBytes + p.inFlightBytes + p.lostBytes := by
  rw [h.read_eq, ← h.held_eq, total_reservedBytes]
  rfl

theorem readBytes_eq_sizes {jobs : List Job} (hsound : ∀ j ∈ jobs, j.Sound rules) :
    Count.total (jobs.map Job.readBytes) =
      Count.total ((jobs.filterMap Job.analysis?).map (rules.access.sizeOf ·.path)) := by
  induction jobs with
  | nil => rfl
  | cons j jobs ih =>
      obtain ⟨hj, hjobs⟩ := List.forall_mem_cons.1 hsound
      rw [List.map_cons, Count.total_cons, ih hjobs]
      cases hanalysis : j.analysis? with
      | none =>
          have hnone : j.readBytes = 0 := by
            obtain ⟨c, stage⟩ := j
            cases stage with
            | fresh => rfl
            | reserved bytes => rfl
            | ended bytes outcome =>
                cases hanalysis
                rfl
          rw [List.filterMap_cons_none hanalysis, hnone, Nat.zero_add]
      | some f =>
          have hsome : j.readBytes = j.reservedBytes.toNat := by
            obtain ⟨c, stage⟩ := j
            cases stage with
            | fresh => cases hanalysis
            | reserved bytes => cases hanalysis
            | ended bytes outcome =>
                cases hanalysis
                rfl
          rw [List.filterMap_cons_some hanalysis, List.map_cons, Count.total_cons, hsome,
            FileAccess.sizeOf, (hj.size_of_analysis hanalysis).1, Option.getD_some]

theorem Step.lostBytes_le {a : PoolAction} (h : Step rules p a q) : p.lostBytes ≤ q.lostBytes := by
  cases h with
  | idle _ _ => exact Nat.le_refl _
  | close _ _ => exact Nat.le_refl _
  | callOff => exact Nat.le_refl _
  | start _ _ _ =>
      simp only [lostBytes, jobs, List.map_append, Count.total_append, List.map_cons,
        Count.total_cons]
      omega
  | @advance front back j hr =>
      have hj := j.lostBytes_le_advance rules p.bytesRead
      simp only [lostBytes, jobs, hr, List.map_append, Count.total_append, List.map_cons,
        Count.total_cons]
      omega
  | @handOver front back j _ hr _ =>
      have hperm := (jobs_handOver_perm front back p.finished j).map Job.lostBytes
      rw [lostBytes, jobs, hr, ← Count.total_eq_of_perm hperm]
      exact Nat.le_refl _

/-- **What is lost stays lost**, whatever happens next. -/
theorem lostBytes_le_actAll (p : Pool) (actions : List PoolAction) :
    p.lostBytes ≤ (p.actAll rules actions).lostBytes :=
  actAll_induction (I := fun q => p.lostBytes ≤ q.lostBytes)
    (fun _ _ _ _ h hs => Nat.le_trans h hs.lostBytes_le) (Nat.le_refl _)

theorem failsToRead_of_start (rules : PoolRules) (candidates : List Candidate) (calledOff : Bool)
    (actions : List PoolAction) :
    ∀ j ∈ ((start candidates calledOff).actAll rules actions).jobs,
      j.lostBytes ≠ 0 → j.FailsToRead rules := by
  have hboth : ∀ j ∈ ((start candidates calledOff).actAll rules actions).jobs,
      j.Sound rules ∧ (j.lostBytes ≠ 0 → j.FailsToRead rules) := by
    refine actAll_induction (I := fun p => ∀ j ∈ p.jobs, j.Sound rules ∧
      (j.lostBytes ≠ 0 → j.FailsToRead rules)) ?_ ?_
    · intro _ _ p q hp hs
      refine hs.forall_jobs (fun c => ⟨trivial, fun h => absurd rfl h⟩) (fun j _ h => ?_) hp
      exact ⟨h.1.advance p.bytesRead, h.1.lostBytes_advance p.bytesRead h.2⟩
    · exact fun _ hj => absurd hj List.not_mem_nil
  exact fun j hj => (hboth j hj).2

theorem lostBytes_eq_zero_iff : p.lostBytes = 0 ↔ ∀ j ∈ p.jobs, j.lostBytes = 0 := by
  rw [lostBytes]
  induction p.jobs with
  | nil => exact iff_of_true rfl (List.forall_mem_nil _)
  | cons j jobs ih =>
      rw [List.map_cons, Count.total_cons, List.forall_mem_cons, ← ih]
      omega

end Bytes

/-! ## What failed reads cost -/

/-- How the bytes read of a pool come about. -/
structure CountsFailedReads (rules : PoolRules) (p : Pool) : Prop where
  bytesRead : p.bytesRead.toNat = p.readBytes + p.inFlightBytes + p.lostBytes
  /-- The files read count with their sizes. -/
  sizes : p.readBytes =
    Count.total ((p.jobs.filterMap Job.analysis?).map (rules.access.sizeOf ·.path))
  /-- Bytes are lost to files that could not be read, each with its own size. -/
  lost : ∀ j ∈ p.jobs, j.lostBytes ≠ 0 → j.FailsToRead rules
  /-- They stay lost. -/
  forGood : ∀ actions, p.lostBytes ≤ (p.actAll rules actions).lostBytes
  /-- The bytes read are those of files read and in flight if no bytes are lost, and only then. -/
  exact_iff : p.bytesRead.toNat = p.readBytes + p.inFlightBytes ↔ ∀ j ∈ p.jobs, j.lostBytes = 0
  /-- The next file gets its bytes if the limit has room for them beside all the others, the lost
  ones among them. -/
  granted_iff : ∀ a r, p.reservation? rules a = some r → (r.granted = true ↔
    p.readBytes + p.inFlightBytes + p.lostBytes + r.size.toNat ≤
      rules.limits.maxTotalSize.toNat)

end Pool

/-- **A failed read keeps its bytes of the budget.**  In every state that a pool can reach, the bytes
read are those of the files read, of those in flight, and of those that could not be read, and the
last count against every later file. -/
theorem failed_reads_keep_bytes (rules : PoolRules) (candidates : List Candidate)
    (calledOff : Bool) (actions : List PoolAction) :
    ((Pool.start candidates calledOff).actAll rules actions).CountsFailedReads rules := by
  have hbooked : Pool.Booked rules ((Pool.start candidates calledOff).reservations rules actions)
      ((Pool.start candidates calledOff).actAll rules actions) :=
    (Pool.booked_start rules candidates calledOff).actAll
  have hsound := Pool.sound_of_start rules candidates calledOff actions
  have hlost := Pool.failsToRead_of_start rules candidates calledOff actions
  generalize (Pool.start candidates calledOff).actAll rules actions = p at hbooked hsound hlost
  refine ⟨hbooked.bytesRead_eq, Pool.readBytes_eq_sizes hsound, hlost, p.lostBytes_le_actAll, ?_, ?_⟩
  · rw [hbooked.bytesRead_eq, ← Pool.lostBytes_eq_zero_iff]
    omega
  · intro a r hr
    have hnext := (hbooked.step (Pool.step_act rules p a)).answers r
    rw [hr, Option.toList_some] at hnext
    rw [hnext (List.mem_append_right _ (List.mem_singleton_self r)), p.before_of_reservation hr,
      hbooked.bytesRead_eq]

/-- Two files that fill the budget, of which the first cannot be read. -/
def unreadableFirst : PoolRules where
  limits :=
    { maxFiles := 2, maxFileSize := 8, maxTotalSize := 8, concurrency := 1, excluded := [] }
  access :=
    { size? := fun _ => some 8
      read? := fun path => if path = "a.py" then none else some [] }
  time := ""
  calledOffAt := fun _ => false

/-- The file that cannot be read has the second one refused, which gets its bytes if it is alone. -/
theorem unreadable_file_has_next_refused :
    let unreadable : Candidate := ⟨"a.py", .python⟩
    let readable : Candidate := ⟨"b.py", .python⟩
    let both := Pool.start [unreadable, readable] false
    let actions := [.pull, .advance 0, .advance 0, .handOver 0, .pull, .advance 0]
    let p := both.actAll unreadableFirst actions
    p.bytesRead = 8 ∧ p.readBytes + p.inFlightBytes = 0 ∧
      both.reservations unreadableFirst actions =
        [⟨unreadable, 8, 0, true⟩, ⟨readable, 8, 8, false⟩] ∧
      (Pool.start [readable] false).reservations unreadableFirst [.pull, .advance 0] =
        [⟨readable, 8, 0, true⟩] := by
  decide

end CodeSurvey
