/-
What a Python source shows.

Every finding is data: names in the order they were first seen, and remarks tied to lines.  Names
are kept without their lines, since a name may occur on many; only an import keeps one, that of the
last import of the name.  A remark is kept as the text that is to be shown.

Some lists can be told from others, as the unused variables from the declared and the used ones.
They are kept all the same, so that a record can be read without the rules that made it.
-/

namespace CodeSurvey

/-- A remark about one line. -/
structure LineIssue where
  line : Nat
  message : String
deriving DecidableEq, Repr, Inhabited

/-- A `print` call, with the code of its line. -/
structure PrintStatement where
  line : Nat
  code : String
deriving DecidableEq, Repr, Inhabited

/-- How much one function does. -/
structure Complexity where
  function : String
  line : Nat
  /-- Loop headers in the body. -/
  loops : Nat
  /-- Call tokens in the body. -/
  calls : Nat
deriving DecidableEq, Repr, Inhabited

/-- An imported name and the line of its last import. -/
structure ImportedName where
  name : String
  line : Nat
deriving DecidableEq, Repr, Inhabited

/-- Names that a function assigns and nothing reads. -/
structure UnusedWrites where
  function : String
  names : List String
deriving DecidableEq, Repr, Inhabited

/-- The findings of a Python source. -/
structure PythonFindings where
  declaredFunctions : List String
  calledFunctions : List String
  unusedFunctions : List String
  declaredVars : List String
  usedVars : List String
  unusedVars : List String
  printStatements : List PrintStatement
  uninitializedVars : List String
  docstringIssues : List LineIssue
  functionComplexity : List Complexity
  styleIssues : List LineIssue
  commonErrors : List LineIssue
  refactorSuggestions : List LineIssue
  unusedImports : List ImportedName
  deadCode : List LineIssue
  /-- Groups of functions with equal bodies. -/
  duplicateFunctions : List (List String)
  unusedWrites : List UnusedWrites
  thirdPartyCode : List LineIssue
  performanceIssues : List LineIssue
deriving DecidableEq, Repr, Inhabited

end CodeSurvey
