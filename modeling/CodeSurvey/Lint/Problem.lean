/-
Problems that an outside lint tool reports.

A severity is a number here and not a choice of two, since a tool may send others.  They are kept
and written out again unchanged, but neither predicate holds of them, and so they are in no section
of a summary: a problem with severity 0 or 3 is in the record of a source and in nothing that is
printed for a reader.
-/

namespace CodeSurvey

/-- One problem of a lint report. -/
structure LintProblem where
  /-- The rule that was broken, if the tool names one. -/
  ruleId : Option String
  /-- 1 for a warning, 2 for an error, below 256. -/
  severity : Nat
  message : String
  line : Nat
  column : Nat
deriving DecidableEq, Repr, Inhabited

namespace LintProblem

/-- The severity of an error. -/
def errorSeverity : Nat := 2

def warningSeverity : Nat := 1

def isError (p : LintProblem) : Bool := p.severity == errorSeverity

def isWarning (p : LintProblem) : Bool := p.severity == warningSeverity

end LintProblem

end CodeSurvey
