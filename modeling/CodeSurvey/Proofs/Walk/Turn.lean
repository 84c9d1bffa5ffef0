/-
# One file at a time

With one file at a time there is an order even where the budget is tight: the candidates are taken
in turn (`Taken.next`).  The invariant is what the pool is going to come to (`Pool.prospect`): the
file in flight settled, then every waiting file taken in turn.  No step changes it, and at the end
it is what the pool has come to.
-/
import CodeSurvey.Proofs.Walk.Budget
import CodeSurvey.Proofs.Walk.Ending

namespace CodeSurvey

/-! ## Files taken in turn -/

/-- What files taken in turn have come to. -/
structure Taken where
  files : List FileAnalysis
  skipped : Nat
  /-- The sizes of the files analyzed. -/
  bytes : Nat
deriving DecidableEq, Repr

/-- The size of a file can be told, and its bytes can be read. -/
def FileAccess.Answers (access : FileAccess) (path : String) : Prop :=
  (access.size? path).isSome = true ∧ (access.read? path).isSome = true

def PoolRules.analysisOf (rules : PoolRules) (c : Candidate) : FileAnalysis :=
  c.analysis rules.time ((rules.access.read? c.path).getD [])

namespace Taken

/-- Before the first file. -/
def empty : Taken := ⟨[], 0, 0⟩

def add (t : Taken) : Option FileAnalysis → Taken
  | none => { t with skipped := t.skipped + 1 }
  | some f => { t with files := t.files ++ [f] }

/-- Take the next candidate: it is analyzed if it is not too large for one file and does not bring
the sizes above the budget, and skipped otherwise. -/
def next (rules : PoolRules) (t : Taken) (c : Candidate) : Taken :=
  let size := rules.access.sizeOf c.path
  if size ≤ rules.limits.maxFileSize.toNat ∧
      t.bytes + size ≤ rules.limits.maxTotalSize.toNat then
    { files := t.files ++ [rules.analysisOf c]
      skipped := t.skipped
      bytes := t.bytes + size }
  else { t with skipped := t.skipped + 1 }

/-- What is going to be added for a file in flight. -/
def settle (rules : PoolRules) (t : Taken) (j : Job) : Taken :=
  match j.stage with
  | .fresh => t.next rules j.candidate
  | .reserved _ => t.add (some (rules.analysisOf j.candidate))
  | .ended _ outcome => t.add outcome

end Taken

namespace Pool

end Pool

end CodeSurvey
