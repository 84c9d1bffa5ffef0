/-
# The byte budget is never overshot

A file reserves its bytes in one step, which looks at what is reserved and adds to it, and files
take these steps in any order.  A run is therefore also a list of tries to reserve, each with what
was reserved before it and with its answer (`reservations`); the bytes read are what this list
grants and nothing else (`Booked`).  The list is read off the actions of a run, so it is there for
every order of them.

Words have 64 bits.  A sum that wraps is refused as if it had been taken in full
(`reserve_eq_none_iff`), so beyond that lemma all bytes are counted as natural numbers.
-/
import CodeSurvey.Proofs.Walk.Accounting

namespace CodeSurvey

/-! ## Reserving -/

theorem reserve_eq_some_iff {limit current size sum : UInt64} :
    reserve limit current size = some sum ↔
      sum.toNat = current.toNat + size.toNat ∧ sum ≤ limit := by
  rw [reserve, Option.filter_eq_some_iff, Count.checkedAdd_eq_some_iff, decide_eq_true_eq]

/-- Bytes are refused exactly if the true sum, also one beyond 64 bits, exceeds the limit. -/
theorem reserve_eq_none_iff {limit current size : UInt64} :
    reserve limit current size = none ↔ limit.toNat < current.toNat + size.toNat := by
  have hlimit := limit.toNat_lt
  rw [reserve]
  cases hsum : Count.checkedAdd current size with
  | none =>
      rw [Count.checkedAdd_eq_none_iff, Count.limit] at hsum
      simp only [Option.filter_none, true_iff]
      omega
  | some sum =>
      have hle : sum ≤ limit ↔ current.toNat + size.toNat ≤ limit.toNat := by
        rw [UInt64.le_iff_toNat_le, Count.checkedAdd_eq_some_iff.1 hsum]
      rw [Option.filter_eq_none_iff]
      simp only [Option.some.injEq, forall_eq', decide_eq_true_eq, hle, Nat.not_le]

/-- A try to reserve bytes of the budget. -/
structure Reservation where
  candidate : Candidate
  size : UInt64
  /-- The bytes reserved when it was made. -/
  before : UInt64
  granted : Bool
deriving DecidableEq, Repr

/-- The bytes that tries were granted. -/
def grantedBytes (log : List Reservation) : Nat :=
  Count.total ((log.filter (·.granted)).map (·.size.toNat))

@[simp] theorem grantedBytes_append (log more : List Reservation) :
    grantedBytes (log ++ more) = grantedBytes log + grantedBytes more := by
  rw [grantedBytes, List.filter_append, List.map_append, Count.total_append]
  rfl

theorem grantedBytes_singleton (r : Reservation) :
    grantedBytes [r] = if r.granted then r.size.toNat else 0 := by
  cases h : r.granted <;> simp [grantedBytes, h]

namespace Job

/-- The try that a file makes with its next step. -/
def reservation? (rules : PoolRules) (reserved : UInt64) (j : Job) : Option Reservation :=
  match j.stage with
  | .fresh => (rules.wanted? j.candidate).map fun size =>
      { candidate := j.candidate
        size
        before := reserved
        granted := (reserve rules.limits.maxTotalSize reserved size).isSome }
  | _ => none

theorem granted_iff_of_reservation {rules : PoolRules} {reserved : UInt64} {j : Job}
    {r : Reservation} (h : j.reservation? rules reserved = some r) :
    r.before = reserved ∧ (r.granted = true ↔
      r.before.toNat + r.size.toNat ≤ rules.limits.maxTotalSize.toNat) := by
  unfold reservation? at h
  split at h
  · obtain ⟨size, _, rfl⟩ := Option.map_eq_some_iff.1 h
    refine ⟨rfl, ?_⟩
    rw [Option.isSome_iff_ne_none, Ne, reserve_eq_none_iff, Nat.not_lt]
  · cases h

/-- Why a file that was skipped was skipped. -/
def Excused (rules : PoolRules) (log : List Reservation) (j : Job) : Prop :=
  ∀ bytes, j.stage = .ended bytes none →
    rules.wanted? j.candidate = none ∨ rules.access.read? j.candidate.path = none ∨
      ∃ r ∈ log, r.candidate = j.candidate ∧ r.granted = false

theorem Excused.mono {rules : PoolRules} {log : List Reservation} {j : Job}
    (h : j.Excused rules log) (more : List Reservation) : j.Excused rules (log ++ more) := by
  intro bytes hstage
  rcases h bytes hstage with hwanted | hread | ⟨r, hr, hrest⟩
  · exact Or.inl hwanted
  · exact Or.inr (Or.inl hread)
  · exact Or.inr (Or.inr ⟨r, List.mem_append_left _ hr, hrest⟩)

theorem advance_books (rules : PoolRules) (reserved : UInt64) (j : Job)
    (hle : reserved ≤ rules.limits.maxTotalSize) :
    let granted := grantedBytes (j.reservation? rules reserved).toList
    (j.advance rules reserved).2.toNat = reserved.toNat + granted ∧
    (j.advance rules reserved).1.reservedBytes.toNat = j.reservedBytes.toNat + granted ∧
    (j.advance rules reserved).2 ≤ rules.limits.maxTotalSize := by
  obtain ⟨c, stage⟩ := j
  cases stage with
  | reserved size => exact ⟨rfl, rfl, hle⟩
  | ended size outcome => exact ⟨rfl, rfl, hle⟩
  | fresh =>
      cases hwanted : rules.wanted? c with
      | none =>
          simp only [advance, reservation?, hwanted]
          exact ⟨rfl, rfl, hle⟩
      | some size =>
          cases hreserve : reserve rules.limits.maxTotalSize reserved size with
          | none =>
              simpa [advance, reservation?, reservedBytes, hwanted, hreserve,
                grantedBytes_singleton] using hle
          | some sum =>
              have hsum := reserve_eq_some_iff.1 hreserve
              simpa [advance, reservation?, reservedBytes, hwanted, hreserve,
                grantedBytes_singleton] using hsum

/-- A file is skipped for the budget only by a try that was refused. -/
theorem Excused.advance {rules : PoolRules} {log : List Reservation} {j : Job}
    (reserved : UInt64) (h : j.Excused rules log) :
    (j.advance rules reserved).1.Excused rules
      (log ++ (j.reservation? rules reserved).toList) := by
  obtain ⟨c, stage⟩ := j
  cases stage with
  | ended size outcome => exact h.mono _
  | reserved size =>
      intro bytes hstage
      simp only [Job.advance, Stage.ended.injEq, Option.map_eq_none_iff] at hstage
      exact Or.inr (Or.inl hstage.2)
  | fresh =>
      intro bytes hstage
      cases hwanted : rules.wanted? c with
      | none =>
          rw [advance_candidate]
          exact Or.inl hwanted
      | some size =>
          cases hreserve : reserve rules.limits.maxTotalSize reserved size with
          | some sum => simp [Job.advance, hwanted, hreserve] at hstage
          | none =>
              refine Or.inr (Or.inr ⟨⟨c, size, reserved, false⟩, List.mem_append_right _ ?_, ?_⟩)
              · simp [reservation?, hwanted, hreserve]
              · rw [advance_candidate]
                exact ⟨rfl, rfl⟩

end Job

namespace Pool

/-! ## The tries of a run -/

def reservation? (rules : PoolRules) (p : Pool) : PoolAction → Option Reservation
  | .advance place => p.running[place]?.bind (Job.reservation? rules p.bytesRead)
  | _ => none

/-- The tries that actions make, in their order. -/
def reservations (rules : PoolRules) : Pool → List PoolAction → List Reservation
  | _, [] => []
  | p, a :: rest => (p.reservation? rules a).toList ++ (p.act rules a).reservations rules rest

theorem before_of_reservation {rules : PoolRules} (p : Pool) {a : PoolAction} {r : Reservation}
    (h : p.reservation? rules a = some r) : r.before = p.bytesRead := by
  unfold reservation? at h
  split at h
  · obtain ⟨j, _, hj⟩ := Option.bind_eq_some_iff.1 h
    exact (Job.granted_iff_of_reservation hj).1
  · cases h

/-- The bytes read are those that tries were granted, and files hold no others. -/
structure Booked (rules : PoolRules) (log : List Reservation) (p : Pool) : Prop where
  within : p.bytesRead ≤ rules.limits.maxTotalSize
  read_eq : p.bytesRead.toNat = grantedBytes log
  held_eq : Count.total (p.jobs.map (·.reservedBytes.toNat)) = grantedBytes log
  answers : ∀ r ∈ log, r.granted = true ↔
    r.before.toNat + r.size.toNat ≤ rules.limits.maxTotalSize.toNat
  excused : ∀ j ∈ p.jobs, j.Excused rules log

theorem booked_start (rules : PoolRules) (candidates : List Candidate) (calledOff : Bool) :
    Booked rules [] (start candidates calledOff) where
  within := UInt64.zero_le
  read_eq := rfl
  held_eq := rfl
  answers := nofun
  excused := nofun

theorem reservation?_idle {rules : PoolRules} {p : Pool} {a : PoolAction}
    (h : ∀ place, a = .advance place → p.running[place]? = none) :
    p.reservation? rules a = none := by
  cases a with
  | advance place => rw [reservation?, h place rfl, Option.bind_none]
  | pull => rfl
  | handOver place => rfl
  | callOff => rfl

theorem reservation?_advance {rules : PoolRules} {p : Pool} {front back : List Job} {j : Job}
    (h : p.running = front ++ j :: back) :
    p.reservation? rules (.advance front.length) = j.reservation? rules p.bytesRead := by
  rw [reservation?, h, List.getElem?_append_right (Nat.le_refl _), Nat.sub_self]
  rfl

/-- An action that makes no try adds nothing to the log. -/
theorem append_reservation_of_none {rules : PoolRules} {p : Pool} {a : PoolAction}
    (log : List Reservation) (h : p.reservation? rules a = none) :
    log ++ (p.reservation? rules a).toList = log := by
  rw [h, Option.toList_none, List.append_nil]

theorem Booked.step {rules : PoolRules} {log : List Reservation} {p q : Pool} {a : PoolAction}
    (h : Booked rules log p) (hs : Step rules p a q) :
    Booked rules (log ++ (p.reservation? rules a).toList) q := by
  obtain ⟨hwithin, hread, hheld, hanswers, hexcused⟩ := h
  cases hs with
  | idle _ hnone =>
      rw [append_reservation_of_none log (reservation?_idle hnone)]
      exact ⟨hwithin, hread, hheld, hanswers, hexcused⟩
  | close _ _ =>
      rw [append_reservation_of_none log rfl]
      exact ⟨hwithin, hread, hheld, hanswers, hexcused⟩
  | callOff =>
      rw [append_reservation_of_none log rfl]
      exact ⟨hwithin, hread, hheld, hanswers, hexcused⟩
  | start _ _ _ =>
      rw [append_reservation_of_none log rfl]
      refine ⟨hwithin, hread, ?_, hanswers, ?_⟩
      · simpa [jobs, Job.reservedBytes] using hheld
      · intro j hj
        simp only [jobs, List.append_assoc, List.singleton_append, List.mem_append,
          List.mem_cons] at hj
        rcases hj with hj | rfl | hj
        · exact hexcused j (List.mem_append_left _ hj)
        · intro bytes hstage
          cases hstage
        · exact hexcused j (List.mem_append_right _ hj)
  | @handOver front back j _ hr _ =>
      rw [append_reservation_of_none log rfl]
      have hperm := jobs_handOver_perm front back p.finished j
      rw [jobs, hr] at hheld hexcused
      refine ⟨hwithin, hread, ?_, hanswers, ?_⟩
      · exact (Count.total_eq_of_perm (hperm.map _)).trans hheld
      · exact fun i hi => hexcused i (hperm.mem_iff.1 hi)
  | @advance front back j hr =>
      rw [reservation?_advance hr]
      obtain ⟨hbytes, hown, hle⟩ := j.advance_books rules p.bytesRead hwithin
      rw [jobs, hr] at hheld hexcused
      refine ⟨hle, ?_, ?_, ?_, ?_⟩
      · rw [grantedBytes_append, ← hread]
        exact hbytes
      · simp only [jobs, List.map_append, List.map_cons, Count.total_append, Count.total_cons,
          grantedBytes_append, ← hheld, hown]
        omega
      · intro r hr'
        rcases List.mem_append.1 hr' with hr' | hr'
        · exact hanswers r hr'
        · exact (Job.granted_iff_of_reservation (Option.mem_toList.1 hr')).2
      · intro i hi
        simp only [jobs, List.append_assoc, List.cons_append, List.mem_append,
          List.mem_cons] at hi hexcused
        rcases hi with hi | rfl | hi
        · exact (hexcused i (Or.inl hi)).mono _
        · exact (hexcused j (Or.inr (Or.inl rfl))).advance _
        · exact (hexcused i (Or.inr (Or.inr hi))).mono _

theorem Booked.actAll {rules : PoolRules} :
    ∀ {actions : List PoolAction} {log : List Reservation} {p : Pool}, Booked rules log p →
      Booked rules (log ++ p.reservations rules actions) (p.actAll rules actions)
  | [], log, p, h => by
      rw [reservations, List.append_nil]
      exact h
  | a :: rest, log, p, h => by
      rw [reservations, ← List.append_assoc, actAll_cons]
      exact (h.step (step_act rules p a)).actAll

end Pool

/-! ## The sizes of the files analyzed -/

theorem PoolRules.wanted?_eq_some_iff {rules : PoolRules} {c : Candidate} {size : UInt64} :
    rules.wanted? c = some size ↔
      rules.access.size? c.path = some size ∧ size ≤ rules.limits.maxFileSize := by
  rw [wanted?]
  cases rules.access.size? c.path with
  | none => simp
  | some known =>
      simp only [Option.some.injEq]
      split
      · rename_i hlt
        simp only [reduceCtorEq, false_iff, not_and]
        rintro rfl
        exact UInt64.not_le.2 hlt
      · rename_i hle
        simp only [Option.some.injEq, iff_self_and]
        rintro rfl
        exact UInt64.not_lt.1 hle

theorem PoolRules.wanted?_eq_none_iff {rules : PoolRules} {c : Candidate} :
    rules.wanted? c = none ↔ rules.access.size? c.path = none ∨
      ∃ size, rules.access.size? c.path = some size ∧ rules.limits.maxFileSize < size := by
  rw [wanted?]
  cases rules.access.size? c.path with
  | none => simp
  | some known => simp

def FileAccess.sizeOf (access : FileAccess) (path : String) : Nat :=
  ((access.size? path).getD 0).toNat

theorem Job.Sound.size_of_analysis {rules : PoolRules} {j : Job} {f : FileAnalysis}
    (h : j.Sound rules) (hf : j.analysis? = some f) :
    rules.access.size? f.path = some j.reservedBytes ∧
      j.reservedBytes ≤ rules.limits.maxFileSize := by
  have hpath : f.path = j.candidate.path := congrArg Candidate.path (h.candidate_eq hf)
  rw [hpath]
  exact PoolRules.wanted?_eq_some_iff.1 (h.of_analysis hf).1

theorem total_analyzed_le {rules : PoolRules} :
    ∀ {jobs : List Job}, (∀ j ∈ jobs, j.Sound rules) →
      Count.total ((jobs.filterMap Job.analysis?).map (rules.access.sizeOf ·.path)) ≤
        Count.total (jobs.map (·.reservedBytes.toNat))
  | [], _ => Nat.le_refl _
  | j :: rest, hsound => by
      have ih := total_analyzed_le (fun i hi => hsound i (List.mem_cons_of_mem j hi))
      cases hj : j.analysis? with
      | none =>
          rw [List.filterMap_cons_none hj, List.map_cons, Count.total_cons]
          omega
      | some f =>
          have hsize := ((hsound j List.mem_cons_self).size_of_analysis hj).1
          rw [List.filterMap_cons_some hj, List.map_cons, List.map_cons, Count.total_cons,
            Count.total_cons, FileAccess.sizeOf, hsize, Option.getD_some]
          omega

/-- **The byte budget is never overshot.**  In every state that a pool can reach, the bytes read
are those that tries to reserve were granted, they stay within the limit, and so do the sizes of
all files analyzed; a try that is refused changes nothing and would have exceeded the limit, and
no file is skipped for the budget without one. -/
theorem bytes_read_within_budget (rules : PoolRules) (candidates : List Candidate)
    (calledOff : Bool) (actions : List PoolAction) :
    let first := Pool.start candidates calledOff
    let p := first.actAll rules actions
    let log := first.reservations rules actions
    p.bytesRead ≤ rules.limits.maxTotalSize ∧
    p.bytesRead.toNat = Count.total ((log.filter (·.granted)).map (·.size.toNat)) ∧
    (∀ r ∈ log, r.granted = false →
      rules.limits.maxTotalSize.toNat < r.before.toNat + r.size.toNat) ∧
    (∀ a r, p.reservation? rules a = some r → r.before = p.bytesRead ∧
      (p.act rules a).bytesRead.toNat =
        if r.granted then p.bytesRead.toNat + r.size.toNat else p.bytesRead.toNat) ∧
    (∀ a, p.reservation? rules a = none → (p.act rules a).bytesRead = p.bytesRead) ∧
    (∀ j ∈ p.finished, j.analysis? = none →
      rules.access.size? j.candidate.path = none ∨
      (∃ size, rules.access.size? j.candidate.path = some size ∧
        rules.limits.maxFileSize < size) ∨
      rules.access.read? j.candidate.path = none ∨
      ∃ r ∈ log, r.candidate = j.candidate ∧ r.granted = false) ∧
    (∀ f ∈ p.files, ∃ size, rules.access.size? f.path = some size ∧
      size ≤ rules.limits.maxFileSize) ∧
    Count.total (p.files.map (rules.access.sizeOf ·.path)) ≤
      rules.limits.maxTotalSize.toNat := by
  intro first p log
  have hbooked : p.Booked rules log := (Pool.booked_start rules candidates calledOff).actAll
  have hsound : ∀ j ∈ p.jobs, j.Sound rules :=
    Pool.sound_of_start rules candidates calledOff actions
  have hfinished : ∀ j ∈ p.finished, j.Sound rules :=
    fun j hj => hsound j (List.mem_append_right _ hj)
  have hended : ∀ j ∈ p.finished, j.isEnded = true :=
    Pool.ended_of_start rules candidates calledOff actions
  refine ⟨hbooked.within, hbooked.read_eq, ?_, ?_, ?_, ?_, ?_, ?_⟩
  · intro r hr hrefused
    rw [← Nat.not_le, ← hbooked.answers r hr, hrefused]
    exact Bool.false_ne_true
  · intro a r hr
    have hnext := (hbooked.step (Pool.step_act rules p a)).read_eq
    rw [hr, Option.toList_some, grantedBytes_append, ← hbooked.read_eq,
      grantedBytes_singleton] at hnext
    refine ⟨p.before_of_reservation hr, ?_⟩
    rw [hnext]
    split <;> rfl
  · intro a hnone
    have hnext := (hbooked.step (Pool.step_act rules p a)).read_eq
    rw [hnone, Option.toList_none, List.append_nil, ← hbooked.read_eq] at hnext
    exact UInt64.toNat_inj.1 hnext
  · intro j hj hskipped
    obtain ⟨bytes, hstage⟩ := Job.stage_of_isEnded (hended j hj)
    rw [hskipped] at hstage
    rcases hbooked.excused j (List.mem_append_right _ hj) bytes hstage with hw | hread | hr
    · rcases PoolRules.wanted?_eq_none_iff.1 hw with hsize | hlarge
      · exact Or.inl hsize
      · exact Or.inr (Or.inl hlarge)
    · exact Or.inr (Or.inr (Or.inl hread))
    · exact Or.inr (Or.inr (Or.inr hr))
  · intro f hf
    obtain ⟨j, hj, hjf⟩ := List.mem_filterMap.1 hf
    exact ⟨j.reservedBytes, (hfinished j hj).size_of_analysis hjf⟩
  · have hheld : Count.total (p.finished.map (·.reservedBytes.toNat)) ≤ p.bytesRead.toNat := by
      rw [hbooked.read_eq, ← hbooked.held_eq, Pool.jobs, List.map_append, Count.total_append]
      exact Nat.le_add_left _ _
    calc Count.total (p.files.map (rules.access.sizeOf ·.path))
        _ ≤ Count.total (p.finished.map (·.reservedBytes.toNat)) := total_analyzed_le hfinished
        _ ≤ p.bytesRead.toNat := hheld
        _ ≤ rules.limits.maxTotalSize.toNat := UInt64.le_iff_toNat_le.1 hbooked.within

end CodeSurvey
