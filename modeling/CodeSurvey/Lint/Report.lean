/-
Reading lint reports.

A report is a JSON array with one entry for each file; an entry holds the messages of its file. The
problems are those of all messages in order.

An entry without messages has no problem, and a message may lack its rule and its place.  But a
message without a severity or a text is no message, and then the whole report is unreadable: a tool
whose report is half understood is treated like one that did not run.
-/
import CodeSurvey.Json.Decode
import CodeSurvey.Json.Reader
import CodeSurvey.Lint.Problem

namespace CodeSurvey.LintReport

open Json (required withDefault record? text? nat? natBelow? list?)

/-- A message of a report: its rule and its place may be missing. -/
def message? : Json → Option LintProblem :=
  record? ["ruleId", "severity", "message", "line", "column"] (do
    let ruleId ← withDefault none (Json.nullable? text?)
    let severity ← required (natBelow? 256)
    let message ← required text?
    let line ← withDefault 0 nat?
    let column ← withDefault 0 nat?
    return { ruleId, severity, message, line, column })

def fileReport? : Json → Option (List LintProblem) :=
  record? ["messages"] (withDefault [] (list? message?))

def problems? (value : Json) : Option (List LintProblem) :=
  (list? fileReport? value).map List.flatten

def parse? (text : String) : Option (List LintProblem) :=
  (Json.parse? text.toList).bind problems?

end CodeSurvey.LintReport
