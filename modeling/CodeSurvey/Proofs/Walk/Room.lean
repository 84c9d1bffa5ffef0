/-
# Room for every file

While the budget has room for every file there is, what becomes of a file is decided by the file
alone (`PoolRules.verdict?`).  The invariant that carries this counts ahead: the bytes read, the
bytes that fresh files will ask for and those that waiting files will ask for stay within the limit
together (`Pool.Roomy`), so no try to reserve is ever refused.
-/
import CodeSurvey.Proofs.Repository.Analysis
import CodeSurvey.Proofs.Walk.Budget
import CodeSurvey.Proofs.Walk.Ending

namespace CodeSurvey

/-! ## Verdicts -/

/-- What becomes of a candidate as long as the budget has room for it. -/
def PoolRules.verdict? (rules : PoolRules) (c : Candidate) : Option FileAnalysis :=
  (rules.wanted? c).bind fun _ => (rules.access.read? c.path).map (c.analysis rules.time)

/-- The bytes that a candidate asks for; none if it is going to be skipped without asking. -/
def PoolRules.wantedBytes (rules : PoolRules) (c : Candidate) : Nat :=
  ((rules.wanted? c).getD 0).toNat

namespace Job

/-- The bytes that a file is still going to ask for. -/
def pendingBytes (rules : PoolRules) (j : Job) : Nat :=
  match j.stage with
  | .fresh => rules.wantedBytes j.candidate
  | _ => 0

theorem pendingBytes_fresh (rules : PoolRules) (c : Candidate) :
    (Job.mk c .fresh).pendingBytes rules = rules.wantedBytes c := rfl

/-- A file has come to what becomes of its candidate, or is on the way there. -/
def Decided (rules : PoolRules) (j : Job) : Prop :=
  match j.stage with
  | .fresh => True
  | .reserved size => rules.wanted? j.candidate = some size
  | .ended _ outcome => outcome = rules.verdict? j.candidate

theorem reserve_of_room {rules : PoolRules} {reserved size : UInt64} {c : Candidate}
    (hwanted : rules.wanted? c = some size)
    (hroom : reserved.toNat + rules.wantedBytes c ≤ rules.limits.maxTotalSize.toNat) :
    ∃ sum, reserve rules.limits.maxTotalSize reserved size = some sum ∧
      sum.toNat = reserved.toNat + rules.wantedBytes c := by
  have hbytes : rules.wantedBytes c = size.toNat := by
    rw [PoolRules.wantedBytes, hwanted, Option.getD_some]
  rw [hbytes] at hroom ⊢
  cases hreserve : reserve rules.limits.maxTotalSize reserved size with
  | none =>
      rw [reserve_eq_none_iff] at hreserve
      omega
  | some sum => exact ⟨sum, rfl, (reserve_eq_some_iff.1 hreserve).1⟩

theorem advance_pendingBytes {rules : PoolRules} {reserved : UInt64} {j : Job}
    (hroom : reserved.toNat + j.pendingBytes rules ≤ rules.limits.maxTotalSize.toNat) :
    (j.advance rules reserved).2.toNat + (j.advance rules reserved).1.pendingBytes rules =
      reserved.toNat + j.pendingBytes rules := by
  obtain ⟨c, stage⟩ := j
  cases stage with
  | reserved size => rfl
  | ended size outcome => rfl
  | fresh =>
      cases hwanted : rules.wanted? c with
      | none => simp [advance, pendingBytes, PoolRules.wantedBytes, hwanted]
      | some size =>
          obtain ⟨sum, hreserve, hsum⟩ := reserve_of_room hwanted hroom
          simpa [advance, pendingBytes, hwanted, hreserve] using hsum

theorem Decided.advance {rules : PoolRules} {reserved : UInt64} {j : Job}
    (hroom : reserved.toNat + j.pendingBytes rules ≤ rules.limits.maxTotalSize.toNat)
    (h : j.Decided rules) : (j.advance rules reserved).1.Decided rules := by
  obtain ⟨c, stage⟩ := j
  cases stage with
  | ended size outcome => exact h
  | reserved size =>
      have hwanted : rules.wanted? c = some size := h
      simp [Job.advance, Decided, PoolRules.verdict?, hwanted]
  | fresh =>
      cases hwanted : rules.wanted? c with
      | none => simp [Job.advance, Decided, PoolRules.verdict?, hwanted]
      | some size =>
          obtain ⟨sum, hreserve, -⟩ := reserve_of_room hwanted hroom
          simp [Job.advance, Decided, hwanted, hreserve]

end Job

namespace Pool

/-- The budget has room for every file that is still going to ask. -/
structure Roomy (rules : PoolRules) (p : Pool) : Prop where
  room : p.bytesRead.toNat + Count.total (p.running.map (·.pendingBytes rules)) +
    Count.total (p.waiting.map rules.wantedBytes) ≤ rules.limits.maxTotalSize.toNat
  decided : ∀ j ∈ p.jobs, j.Decided rules

theorem Roomy.room_of_mem {rules : PoolRules} {p : Pool} (h : Roomy rules p) {j : Job}
    (hj : j ∈ p.running) :
    p.bytesRead.toNat + j.pendingBytes rules ≤ rules.limits.maxTotalSize.toNat := by
  have hroom := h.room
  have hle := Count.le_total_of_mem (List.mem_map_of_mem (f := (·.pendingBytes rules)) hj)
  omega

theorem Roomy.step {rules : PoolRules} {p q : Pool} {a : PoolAction} (h : Roomy rules p)
    (hs : Step rules p a q) : Roomy rules q := by
  have hdecided : ∀ j ∈ q.jobs, j.Decided rules :=
    hs.forall_jobs (fun _ => trivial) (fun _ hj hd => hd.advance (h.room_of_mem hj)) h.decided
  have hroom := h.room
  refine ⟨?_, hdecided⟩
  cases hs with
  | idle _ _ => exact hroom
  | close _ _ => exact hroom
  | callOff => exact hroom
  | @start c rest _ _ hw =>
      simp only [hw, List.map_cons, Count.total_cons] at hroom
      simp only [List.map_append, List.map_cons, List.map_nil, Count.total_append,
        Count.total_cons, Count.total_nil, Job.pendingBytes_fresh]
      omega
  | @advance front back j hr =>
      have hj := h.room_of_mem (j := j) (by rw [hr]; exact List.mem_append_cons_self)
      have hbytes := Job.advance_pendingBytes hj
      simp only [hr, List.map_append, List.map_cons, Count.total_append, Count.total_cons]
        at hroom ⊢
      omega
  | @handOver front back j _ hr hended =>
      simp only [hr, List.map_append, List.map_cons, Count.total_append, Count.total_cons]
        at hroom ⊢
      omega

theorem Roomy.actAll {rules : PoolRules} {p : Pool} (h : Roomy rules p)
    (actions : List PoolAction) : Roomy rules (p.actAll rules actions) :=
  actAll_induction (fun _ _ _ _ hp hs => hp.step hs) h

end Pool

/-! ## Walks with room -/

def PoolRules.recordOf (rules : PoolRules) (request : WalkRequest)
    (candidates : List Candidate) : RepositoryAnalysis :=
  RepositoryAnalysis.ofFiles
    { url := request.url
      branch := request.branch
      skipped := candidates.countP (fun c => (rules.verdict? c).isNone)
      cancelled := false
      generatedAt := rules.time } (candidates.filterMap rules.verdict?)

end CodeSurvey
