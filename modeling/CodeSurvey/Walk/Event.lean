/-
What a walk reports and how it can fail.

The reports of a walk are values in the order in which they are made: the number of candidates
first, then each file as it is handed over, then one report that ends the walk.  That last one says
whether the walk was called off before all files were started.

A walk fails as a whole only for its limits, for the directory, for the clone, or for a repository
that cannot be listed.  The first two kinds of message belong to limits that leave nothing to do;
they are told before anything happens.
-/
import CodeSurvey.Json.Value

namespace CodeSurvey

/-- A report on the progress of a walk. -/
inductive ProgressEvent where
  /-- The candidates are known; all of them are counted. -/
  | start (totalCandidates : Nat)
  /-- A file was analyzed or skipped, the `analyzed`-th of `total` to be worked on. -/
  | file (path : String) (analyzed total : Nat)
  /-- The walk came to its end. -/
  | done (analyzed skipped : Nat)
  /-- The walk was called off before its end. -/
  | cancelled (analyzed skipped : Nat)
deriving DecidableEq, Repr

/-- A report as a record. -/
def ProgressEvent.toJson : ProgressEvent → Json
  | start totalCandidates =>
    .object [("phase", .string "start"), ("totalCandidates", .nat totalCandidates)]
  | file path analyzed total =>
    .object [("phase", .string "file"), ("path", .string path), ("analyzed", .nat analyzed),
      ("total", .nat total)]
  | done analyzed skipped =>
    .object [("phase", .string "done"), ("analyzed", .nat analyzed), ("skipped", .nat skipped)]
  | cancelled analyzed skipped =>
    .object [("phase", .string "cancelled"), ("analyzed", .nat analyzed), ("skipped", .nat skipped)]

/-- Why a walk fails.  Trouble with a single file is no reason: that file is skipped. -/
inductive WalkError where
  | noConcurrency
  | noFiles
  | cloneFailure (url reason : String)
  | fileTrouble (reason : String)
  | unreadableRoot (path reason : String)
deriving DecidableEq, Repr

def WalkError.message : WalkError → String
  | noConcurrency => "invalid walker limits: concurrency must be at least 1"
  | noFiles => "invalid walker limits: max_files must be at least 1"
  | cloneFailure url reason => "failed to clone " ++ url ++ ": " ++ reason
  | fileTrouble reason => "i/o error: " ++ reason
  | unreadableRoot path reason => "failed to walk " ++ path ++ ": " ++ reason

end CodeSurvey
