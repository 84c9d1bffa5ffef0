/-
What a JavaScript source shows.

Most findings are line numbers; declarations carry their names.  A name that is declared again is
listed once, with the line it was declared on last.

Problems of a lint run may be attached to the findings afterwards.  They come from outside and say
nothing about the rest, which stays as the scan has left it.
-/
import CodeSurvey.Lint.Problem

namespace CodeSurvey

/-- A declared name and the line it was last declared on. -/
structure NamedLocation where
  name : String
  line : Nat
deriving DecidableEq, Repr, Inhabited

/-- A number literal other than zero and one. -/
structure NumberLiteral where
  value : String
  line : Nat
deriving DecidableEq, Repr, Inhabited

/-- A line with a reminder in a comment. -/
structure TodoComment where
  comment : String
  line : Nat
deriving DecidableEq, Repr, Inhabited

/-- The findings of a JavaScript source. -/
structure JavaScriptFindings where
  declaredFunctions : List NamedLocation
  unusedFunctions : List NamedLocation
  declaredVariables : List NamedLocation
  unusedVariables : List NamedLocation
  /-- Braces or parentheses that do not balance over the whole source. -/
  syntaxErrors : List String
  varUsage : List Nat
  letUsage : List Nat
  constUsage : List Nat
  evalUsage : List Nat
  documentWriteUsage : List Nat
  todoComments : List TodoComment
  longLines : List Nat
  magicNumbers : List NumberLiteral
  semicolonMissing : List Nat
  arrowFunctions : List NamedLocation
  anonymousFunctions : List NamedLocation
  /-- Lines with a comparison that converts its operands. -/
  doubleEquals : List Nat
  /-- Lines with a strict comparison. -/
  tripleEquals : List Nat
  consoleLogUsage : List Nat
  /-- Problems of an outside lint run, if there was one. -/
  lintProblems : Option (List LintProblem)
deriving DecidableEq, Repr, Inhabited

/-- Attach the problems of a lint run. -/
def JavaScriptFindings.withLintProblems (r : JavaScriptFindings) (problems : List LintProblem) :
    JavaScriptFindings :=
  { r with lintProblems := some problems }

end CodeSurvey
