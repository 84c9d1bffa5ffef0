/-
Python findings as JSON records.

The names of the fields are those that readers of the records know, which are not always those of
the structures here: the calls of a function go by `depth` and the names of unused writes by
`variables`.

Each structure has one writer and one reader, and the reader asks for every field that the writer
writes.  Of the findings the keys are listed once (`PythonFindings.keys`) and paired with the values
in their order; that the two lists are of one length shows when a record is read back.
-/
import CodeSurvey.Json.Decode
import CodeSurvey.Findings.Python

namespace CodeSurvey

open Json (required record? text? nat? texts? list?)

/-- A remark as a record. -/
def LineIssue.toJson (i : LineIssue) : Json :=
  .object [("line", .nat i.line), ("message", .string i.message)]

/-- A remark from its record. -/
def LineIssue.ofJson? : Json → Option LineIssue :=
  record? ["line", "message"] (do
    let line ← required nat?
    let message ← required text?
    return { line, message })

def PrintStatement.toJson (p : PrintStatement) : Json :=
  .object [("line", .nat p.line), ("code", .string p.code)]

def PrintStatement.ofJson? : Json → Option PrintStatement :=
  record? ["line", "code"] (do
    let line ← required nat?
    let code ← required text?
    return { line, code })

/-- The complexity of a function as a record; the number of calls goes by `depth`. -/
def Complexity.toJson (c : Complexity) : Json :=
  .object [("function", .string c.function), ("line", .nat c.line), ("loops", .nat c.loops),
    ("depth", .nat c.calls)]

/-- The complexity of a function from its record. -/
def Complexity.ofJson? : Json → Option Complexity :=
  record? ["function", "line", "loops", "depth"] (do
    let function ← required text?
    let line ← required nat?
    let loops ← required nat?
    let calls ← required nat?
    return { function, line, loops, calls })

def ImportedName.toJson (i : ImportedName) : Json :=
  .object [("name", .string i.name), ("line", .nat i.line)]

def ImportedName.ofJson? : Json → Option ImportedName :=
  record? ["name", "line"] (do
    let name ← required text?
    let line ← required nat?
    return { name, line })

def UnusedWrites.toJson (w : UnusedWrites) : Json :=
  .object [("function", .string w.function), ("variables", .strings w.names)]

def UnusedWrites.ofJson? : Json → Option UnusedWrites :=
  record? ["function", "variables"] (do
    let function ← required text?
    let names ← required texts?
    return { function, names })

namespace PythonFindings

def issues (list : List LineIssue) : Json := .array (list.map LineIssue.toJson)

def issues? : Json → Option (List LineIssue) := list? LineIssue.ofJson?

/-- The fields of the findings. -/
def keys : List String :=
  ["declaredFunctions", "calledFunctions", "unusedFunctions", "declaredVars", "usedVars",
    "unusedVars", "printStatements", "uninitializedVars", "docstringIssues",
    "functionComplexity", "styleIssues", "commonErrors", "refactorSuggestions", "unusedImports",
    "deadCode", "duplicateFunctions", "unusedWrites", "thirdPartyCode", "performanceIssues"]

/-- The findings as a record. -/
def toJson (r : PythonFindings) : Json :=
  .object (keys.zip
    [.strings r.declaredFunctions, .strings r.calledFunctions, .strings r.unusedFunctions,
      .strings r.declaredVars, .strings r.usedVars, .strings r.unusedVars,
      .array (r.printStatements.map PrintStatement.toJson), .strings r.uninitializedVars,
      issues r.docstringIssues, .array (r.functionComplexity.map Complexity.toJson),
      issues r.styleIssues, issues r.commonErrors, issues r.refactorSuggestions,
      .array (r.unusedImports.map ImportedName.toJson), issues r.deadCode,
      .array (r.duplicateFunctions.map .strings),
      .array (r.unusedWrites.map UnusedWrites.toJson), issues r.thirdPartyCode,
      issues r.performanceIssues])

/-- The findings from their record. -/
def ofJson? : Json → Option PythonFindings :=
  record? keys (do
    let declaredFunctions ← required texts?
    let calledFunctions ← required texts?
    let unusedFunctions ← required texts?
    let declaredVars ← required texts?
    let usedVars ← required texts?
    let unusedVars ← required texts?
    let printStatements ← required (list? PrintStatement.ofJson?)
    let uninitializedVars ← required texts?
    let docstringIssues ← required issues?
    let functionComplexity ← required (list? Complexity.ofJson?)
    let styleIssues ← required issues?
    let commonErrors ← required issues?
    let refactorSuggestions ← required issues?
    let unusedImports ← required (list? ImportedName.ofJson?)
    let deadCode ← required issues?
    let duplicateFunctions ← required (list? texts?)
    let unusedWrites ← required (list? UnusedWrites.ofJson?)
    let thirdPartyCode ← required issues?
    let performanceIssues ← required issues?
    return { declaredFunctions, calledFunctions, unusedFunctions, declaredVars, usedVars,
             unusedVars, printStatements, uninitializedVars, docstringIssues,
             functionComplexity, styleIssues, commonErrors, refactorSuggestions, unusedImports,
             deadCode, duplicateFunctions, unusedWrites, thirdPartyCode, performanceIssues })

end PythonFindings

end CodeSurvey
