/-
Lint problems as JSON records.

This is the form in which problems are kept with the findings of a source.  It is stricter than the
form in which tools report them: a rule may be missing, but line and column have no defaults, for
they were filled in when the report of the tool was read.
-/
import CodeSurvey.Json.Decode
import CodeSurvey.Lint.Problem

namespace CodeSurvey.LintProblem

open Json (required optional record? text? nat? natBelow?)

/-- The fields of a problem. -/
def keys : List String := ["ruleId", "severity", "message", "line", "column"]

/-- A problem as a record; a problem without a rule has null for it. -/
def toJson (p : LintProblem) : Json :=
  .object [("ruleId", .ofOption p.ruleId), ("severity", .nat p.severity),
    ("message", .string p.message), ("line", .nat p.line), ("column", .nat p.column)]

/-- A problem from its record. -/
def ofJson? : Json → Option LintProblem :=
  record? keys (do
    let ruleId ← optional text?
    let severity ← required (natBelow? 256)
    let message ← required text?
    let line ← required nat?
    let column ← required nat?
    return { ruleId, severity, message, line, column })

end CodeSurvey.LintProblem
