/-
Walks through repositories.

A walk makes a directory of its own, fetches the repository into it, finds the candidates, works
them off in a pool and gathers the analyses.  The directory is removed on every way out.  All that
a walk does to the world and all it hears from it are values here: the effects in their order, and
the answers of the surroundings.
-/
import CodeSurvey.Walk.Event
import CodeSurvey.Walk.Pool

namespace CodeSurvey

/-- A repository that was fetched: its candidates, and access to its files. -/
structure Checkout where
  /-- The candidates in ascending order of their paths, with an exclusion left out. -/
  candidates : (excluded : String → Bool) → Except WalkError (List Candidate)
  access : FileAccess

/-- What a walk asks for. -/
structure WalkRequest where
  url : String
  branch : Option String
  limits : WalkLimits
deriving Repr

/-- The answers of the surroundings to a walk. -/
structure Surroundings where
  /-- Making a directory. -/
  makeDirectory : Except WalkError Unit
  /-- Fetching the repository into it. -/
  fetch : Except WalkError Checkout
  /-- Whether removing the directory succeeds. -/
  removeDirectory : Bool
  /-- The time. -/
  time : String
  /-- Whether the walk was called off before it began. -/
  calledOff : Bool
  /-- Whether the walk is called off in answer to the report on a file with this number. -/
  calledOffAt : Nat → Bool
  /-- What happens to the pool before it is left to itself. -/
  actions : List PoolAction

/-- What a walk does to the world. -/
inductive WalkEffect where
  | makeDirectory
  | fetch
  | report (event : ProgressEvent)
  | removeDirectory (succeeds : Bool)
deriving DecidableEq, Repr

/-- What a walk comes to. -/
structure WalkOutcome where
  effects : List WalkEffect
  result : Except WalkError RepositoryAnalysis
deriving Repr

def WalkOutcome.events (o : WalkOutcome) : List ProgressEvent :=
  o.effects.filterMap (fun | .report event => some event | _ => none)

/-- The reports on the files handed over, in order; `n` were reported before. -/
def fileEvents (total n : Nat) : List Job → List ProgressEvent
  | [] => []
  | j :: rest => .file j.candidate.path (n + 1) total :: fileEvents total (n + 1) rest

/-- The candidates that a walk works off: the first ones, as many as the limits allow. -/
def WalkLimits.admitted (limits : WalkLimits) (candidates : List Candidate) : List Candidate :=
  candidates.take limits.maxFiles

/-- Whether a pool was left before all of its files were started. -/
def Pool.cutShort (p : Pool) (total : Nat) : Bool := p.calledOff && p.startedCount < total

def Pool.lastEvent (p : Pool) (total : Nat) : ProgressEvent :=
  if p.cutShort total then .cancelled p.files.length p.skipped else .done p.files.length p.skipped

/-- The reports of a walk over candidates whose pool has come to its end. -/
def Pool.events (p : Pool) (candidates total : Nat) : List ProgressEvent :=
  [.start candidates] ++ fileEvents total 0 p.finished ++ [p.lastEvent total]

def Pool.analysis (p : Pool) (request : WalkRequest) (time : String) (total : Nat) :
    RepositoryAnalysis :=
  RepositoryAnalysis.ofFiles
    { url := request.url
      branch := request.branch
      skipped := p.skipped
      cancelled := p.cutShort total
      generatedAt := time } p.files

def poolRules (request : WalkRequest) (around : Surroundings) (access : FileAccess) : PoolRules :=
  { limits := request.limits, access, time := around.time, calledOffAt := around.calledOffAt }

def endPool (request : WalkRequest) (around : Surroundings) (access : FileAccess)
    (admitted : List Candidate) : Pool :=
  (Pool.start admitted around.calledOff).run (poolRules request around access) around.actions

def walk (request : WalkRequest) (around : Surroundings) : WalkOutcome :=
  if request.limits.concurrency = 0 then ⟨[], .error .noConcurrency⟩
  else if request.limits.maxFiles = 0 then ⟨[], .error .noFiles⟩
  else
    match around.makeDirectory with
    | .error e => ⟨[.makeDirectory], .error e⟩
    | .ok () =>
      let removal := [WalkEffect.removeDirectory around.removeDirectory]
      match around.fetch with
      | .error e => ⟨[.makeDirectory, .fetch] ++ removal, .error e⟩
      | .ok checkout =>
        match checkout.candidates (matchesAny request.limits.excluded) with
        | .error e => ⟨[.makeDirectory, .fetch] ++ removal, .error e⟩
        | .ok candidates =>
          let admitted := request.limits.admitted candidates
          let p := endPool request around checkout.access admitted
          let events := p.events candidates.length admitted.length
          ⟨[.makeDirectory, .fetch] ++ events.map .report ++ removal,
            .ok (p.analysis request around.time admitted.length)⟩

def FileAccess.ofTree (tree : FileTree) : FileAccess where
  size? path := (tree.read path).toOption.map (·.length.toUInt64)
  read? path := (tree.read path).toOption

/-- A fetched repository as a tree. -/
def Checkout.ofTree (tree : FileTree) : Checkout where
  candidates excluded := .ok (candidatesOf excluded "" tree)
  access := .ofTree tree

end CodeSurvey
