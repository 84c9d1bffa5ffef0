/-
JavaScript findings as JSON records.

All fields but one are always there, and a missing one is a mistake.  The lint problems are left out
where there was no lint run, which is not the same as a run without problems: that is an empty list.
A null is read like a missing field.

Writing and reading go by the same list of keys (`JavaScriptFindings.keys`), so a field cannot be
written under one name and looked for under another.
-/
import CodeSurvey.Findings.JavaScript
import CodeSurvey.Record.Lint

namespace CodeSurvey

open Json (required withDefault record? text? nat? texts? naturals? list? optionalMember)

/-- A declaration as a record. -/
def NamedLocation.toJson (l : NamedLocation) : Json :=
  .object [("name", .string l.name), ("line", .nat l.line)]

/-- A declaration from its record. -/
def NamedLocation.ofJson? : Json → Option NamedLocation :=
  record? ["name", "line"] (do
    let name ← required text?
    let line ← required nat?
    return { name, line })

def NumberLiteral.toJson (n : NumberLiteral) : Json :=
  .object [("value", .string n.value), ("line", .nat n.line)]

def NumberLiteral.ofJson? : Json → Option NumberLiteral :=
  record? ["value", "line"] (do
    let value ← required text?
    let line ← required nat?
    return { value, line })

/-- A reminder as a record. -/
def TodoComment.toJson (t : TodoComment) : Json :=
  .object [("comment", .string t.comment), ("line", .nat t.line)]

/-- A reminder from its record. -/
def TodoComment.ofJson? : Json → Option TodoComment :=
  record? ["comment", "line"] (do
    let comment ← required text?
    let line ← required nat?
    return { comment, line })

namespace JavaScriptFindings

def locations (list : List NamedLocation) : Json := .array (list.map NamedLocation.toJson)

def locations? : Json → Option (List NamedLocation) := list? NamedLocation.ofJson?

/-- The fields of the findings that are always there. -/
def keys : List String :=
  ["declaredFunctions", "unusedFunctions", "declaredVariables", "unusedVariables",
    "syntaxErrors", "varUsage", "letUsage", "constUsage", "evalUsage", "documentWriteUsage",
    "todoComments", "longLines", "magicNumbers", "semicolonMissing", "arrowFunctions",
    "anonymousFunctions", "doubleEquals", "tripleEquals", "consoleLogUsage"]

/-- The field of the lint problems, which is left out when there was no lint run. -/
def lintKey : String := "eslintProblems"

/-- The findings as a record. -/
def toJson (r : JavaScriptFindings) : Json :=
  .object (keys.zip
    [locations r.declaredFunctions, locations r.unusedFunctions, locations r.declaredVariables,
      locations r.unusedVariables, .strings r.syntaxErrors, .nats r.varUsage, .nats r.letUsage,
      .nats r.constUsage, .nats r.evalUsage, .nats r.documentWriteUsage,
      .array (r.todoComments.map TodoComment.toJson), .nats r.longLines,
      .array (r.magicNumbers.map NumberLiteral.toJson), .nats r.semicolonMissing,
      locations r.arrowFunctions, locations r.anonymousFunctions, .nats r.doubleEquals,
      .nats r.tripleEquals, .nats r.consoleLogUsage] ++
    optionalMember lintKey
      (r.lintProblems.map (fun problems => .array (problems.map LintProblem.toJson))))

/-- The findings from their record. -/
def ofJson? : Json → Option JavaScriptFindings :=
  record? (keys ++ [lintKey]) (do
    let declaredFunctions ← required locations?
    let unusedFunctions ← required locations?
    let declaredVariables ← required locations?
    let unusedVariables ← required locations?
    let syntaxErrors ← required texts?
    let varUsage ← required naturals?
    let letUsage ← required naturals?
    let constUsage ← required naturals?
    let evalUsage ← required naturals?
    let documentWriteUsage ← required naturals?
    let todoComments ← required (list? TodoComment.ofJson?)
    let longLines ← required naturals?
    let magicNumbers ← required (list? NumberLiteral.ofJson?)
    let semicolonMissing ← required naturals?
    let arrowFunctions ← required locations?
    let anonymousFunctions ← required locations?
    let doubleEquals ← required naturals?
    let tripleEquals ← required naturals?
    let consoleLogUsage ← required naturals?
    let lintProblems ← withDefault none (Json.nullable? (list? LintProblem.ofJson?))
    return { declaredFunctions, unusedFunctions, declaredVariables, unusedVariables,
             syntaxErrors, varUsage, letUsage, constUsage, evalUsage, documentWriteUsage,
             todoComments, longLines, magicNumbers, semicolonMissing, arrowFunctions,
             anonymousFunctions, doubleEquals, tripleEquals, consoleLogUsage, lintProblems })

end JavaScriptFindings

end CodeSurvey
