/-
Running an outside lint tool.

The tool gets the source as its input and the file's name as its last argument, and writes a report.
Tools end with a failure whenever they have something to report, so the ending counts only where
there is no report.

The name of the file is no more than a label: the source is what was read, and a tool that opened
the file by its name could find another text there.
-/
import CodeSurvey.Host
import CodeSurvey.Lint.Report
import CodeSurvey.Text.Quoted

namespace CodeSurvey

/-- Why a lint tool gives no problems. -/
inductive LintError where
  | emptyCommand
  | notStarted (program : String)
  | noReport (program : String) (ending : Shell.Ending)
  | badReport
deriving DecidableEq, Repr

def LintError.message : LintError → String
  | emptyCommand => "lint command is empty"
  | notStarted program => "failed to run lint command " ++ Text.quoted program
  | noReport program ending =>
    "lint command " ++ Text.quoted program ++ " exited with " ++ ending.text ++ " without a report"
  | badReport => "unparseable lint output"

/-- The problems in what a tool wrote. -/
def LintReport.ofOutcome (program : String) (outcome : Shell.Outcome) :
    Except LintError (List LintProblem) :=
  let report := Text.decodeUtf8Lossy outcome.output
  if Text.isBlankText report.toList then
    if outcome.ending.isSuccess then .ok [] else .error (.noReport program outcome.ending)
  else
    match LintReport.parse? report with
    | some problems => .ok problems
    | none => .error .badReport

/-- Run a lint tool on a source.  `run` runs a program with arguments and input, if there is such a
program. -/
def lintBy {m : Type → Type} [Monad m]
    (run : String → List String → List UInt8 → m (Option Shell.Outcome))
    (command : List String) (source fileName : String) :
    m (Except LintError (List LintProblem)) := do
  match command with
  | [] => return .error .emptyCommand
  | program :: arguments =>
    match ← run program (arguments ++ [fileName]) (Text.utf8Bytes source) with
    | none => return .error (.notStarted program)
    | some outcome => return LintReport.ofOutcome program outcome

/-- What a lint tool finds in a source, where the answers of all tools are given. -/
def lintWith (run : String → List String → List UInt8 → Option Shell.Outcome)
    (command : List String) (source fileName : String) : Except LintError (List LintProblem) :=
  (lintBy (m := Id) run command source fileName).run

end CodeSurvey
