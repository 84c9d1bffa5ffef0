/-
The pool of files that are worked on at a time.

Files are pulled in order until enough are running; a pull finds out whether the walk was called
off, and if so closes the pool for good.  A running file looks at its size, reserves that many
bytes of the budget in one step, and is then read and analyzed.  A finished file is handed over
only when no file can be pulled.  Which running file moves, which finished file is handed over and
when the walk is called off is decided from outside, by a list of actions.
-/
import CodeSurvey.Count
import CodeSurvey.Findings
import CodeSurvey.Repository.Analysis
import CodeSurvey.Summary
import CodeSurvey.Text.Utf8
import CodeSurvey.Walk.Candidate
import CodeSurvey.Walk.Limits

namespace CodeSurvey

/-! ## Files -/

/-- What asking for a file's size and for its bytes gives, for each path. -/
structure FileAccess where
  size? : String → Option UInt64
  read? : String → Option (List UInt8)

/-- The analysis of a candidate's bytes; bytes that are no text become replacement characters. -/
def Candidate.analysis (c : Candidate) (time : String) (bytes : List UInt8) : FileAnalysis :=
  let summary := summarize (analyze c.language (Text.decodeUtf8Lossy bytes))
  { path := c.path
    language := c.language
    summary := summary.stamped time
    issuesCount := summary.issuesCount }

/-- How far a file has come. -/
inductive Stage where
  | fresh
  /-- Bytes are reserved, and the file is about to be read. -/
  | reserved (bytes : UInt64)
  /-- Done: the bytes reserved, and the analysis unless the file was skipped. -/
  | ended (bytes : UInt64) (outcome : Option FileAnalysis)
deriving DecidableEq, Repr

/-- A file that was started. -/
structure Job where
  candidate : Candidate
  stage : Stage
deriving DecidableEq, Repr

namespace Job

/-- The analysis of a file that was not skipped. -/
def analysis? (j : Job) : Option FileAnalysis :=
  match j.stage with
  | .ended _ outcome => outcome
  | _ => none

def reservedBytes (j : Job) : UInt64 :=
  match j.stage with
  | .fresh => 0
  | .reserved bytes => bytes
  | .ended bytes _ => bytes

/-- Whether a file is done. -/
def isEnded (j : Job) : Bool :=
  match j.stage with
  | .ended _ _ => true
  | _ => false

end Job

/-- Reserve bytes of a budget: the bytes reserved then, unless they would exceed it. -/
def reserve (limit current size : UInt64) : Option UInt64 :=
  (Count.checkedAdd current size).filter (· ≤ limit)

/-- What a pool works by. -/
structure PoolRules where
  limits : WalkLimits
  access : FileAccess
  /-- The time that analyses are stamped with. -/
  time : String
  /-- Whether the walk is called off in answer to the report on the file handed over with this
  number. -/
  calledOffAt : Nat → Bool

/-- The bytes that a candidate asks for: its size, if that can be told and is not too large. -/
def PoolRules.wanted? (rules : PoolRules) (c : Candidate) : Option UInt64 :=
  match rules.access.size? c.path with
  | none => none
  | some size => if rules.limits.maxFileSize < size then none else some size

/-- The next step of a file, given the bytes reserved so far. -/
def Job.advance (rules : PoolRules) (reservedSoFar : UInt64) (j : Job) : Job × UInt64 :=
  match j.stage with
  | .fresh =>
    match rules.wanted? j.candidate with
    | none => ({ j with stage := .ended 0 none }, reservedSoFar)
    | some size =>
      match reserve rules.limits.maxTotalSize reservedSoFar size with
      | none => ({ j with stage := .ended 0 none }, reservedSoFar)
      | some total => ({ j with stage := .reserved size }, total)
  | .reserved size =>
    let outcome :=
      (rules.access.read? j.candidate.path).map (j.candidate.analysis rules.time)
    ({ j with stage := .ended size outcome }, reservedSoFar)
  | .ended _ _ => (j, reservedSoFar)

/-! ## The pool -/

/-- A pool. -/
structure Pool where
  waiting : List Candidate
  /-- Whether no more files are pulled. -/
  closed : Bool
  running : List Job
  /-- The files handed over, in that order. -/
  finished : List Job
  /-- The bytes reserved so far. -/
  bytesRead : UInt64
  /-- Whether the walk was called off. -/
  calledOff : Bool
deriving DecidableEq, Repr

/-- What may happen to a pool. -/
inductive PoolAction where
  | pull
  /-- The running file at a place makes a step. -/
  | advance (place : Nat)
  /-- The running file at a place is handed over. -/
  | handOver (place : Nat)
  | callOff
deriving DecidableEq, Repr

namespace Pool

/-- The pool before its first file. -/
def start (candidates : List Candidate) (calledOff : Bool) : Pool :=
  ⟨candidates, false, [], [], 0, calledOff⟩

/-- The analyses of the files handed over. -/
def files (p : Pool) : List FileAnalysis := p.finished.filterMap Job.analysis?

/-- How many of the files handed over were skipped. -/
def skipped (p : Pool) : Nat := p.finished.countP (fun j => j.analysis?.isNone)

/-- How many files were started. -/
def startedCount (p : Pool) : Nat := p.running.length + p.finished.length

def canPull (rules : PoolRules) (p : Pool) : Bool :=
  !p.closed && p.running.length < rules.limits.concurrency

/-- Whether there is nothing left to do. -/
def isDone (p : Pool) : Bool := p.closed && p.running.isEmpty

/-- Pull the next file, or close the pool. -/
def pull (p : Pool) : Pool :=
  match p.waiting with
  | [] => { p with closed := true }
  | c :: rest =>
    if p.calledOff then { p with closed := true }
    else { p with waiting := rest, running := p.running ++ [⟨c, .fresh⟩] }

/-- Let the running file at a place make a step. -/
def advance (rules : PoolRules) (place : Nat) (p : Pool) : Pool :=
  match p.running[place]? with
  | none => p
  | some j =>
    let (j, bytesRead) := j.advance rules p.bytesRead
    { p with running := p.running.set place j, bytesRead }

def handOver (rules : PoolRules) (place : Nat) (p : Pool) : Pool :=
  match p.running[place]? with
  | none => p
  | some j =>
    if j.isEnded then
      { p with
        running := p.running.eraseIdx place
        finished := p.finished ++ [j]
        calledOff := p.calledOff || rules.calledOffAt (p.finished.length + 1) }
    else p

/-- What an action makes of a pool; an action that is not possible changes nothing. -/
def act (rules : PoolRules) (p : Pool) : PoolAction → Pool
  | .pull => if p.canPull rules then p.pull else p
  | .advance place => p.advance rules place
  | .handOver place => if p.canPull rules then p else p.handOver rules place
  | .callOff => { p with calledOff := true }

/-- What actions in order make of a pool. -/
def actAll (rules : PoolRules) (p : Pool) (actions : List PoolAction) : Pool :=
  actions.foldl (act rules) p

/-- What happens next when nobody decides: a file is pulled, or else the first running file is
brought to its end and handed over. -/
def nextAction (rules : PoolRules) (p : Pool) : PoolAction :=
  if p.canPull rules then .pull
  else
    match p.running with
    | j :: _ => if j.isEnded then .handOver 0 else .advance 0
    | [] => .pull

/-- Bring a pool to its end, in at most as many steps as given. -/
def finish (rules : PoolRules) : Nat → Pool → Pool
  | 0, p => p
  | fuel + 1, p => if p.isDone then p else finish rules fuel (p.act rules (p.nextAction rules))

/-- A bound for the steps that a pool has left: a pull, two steps and a handing over for each
waiting file, three for each running one, and one to close. -/
def stepsLeft (p : Pool) : Nat := 4 * p.waiting.length + 3 * p.running.length + 1

/-- Let actions happen, then bring the pool to its end. -/
def run (rules : PoolRules) (p : Pool) (actions : List PoolAction) : Pool :=
  let p := p.actAll rules actions
  p.finish rules p.stepsLeft

end Pool

end CodeSurvey
