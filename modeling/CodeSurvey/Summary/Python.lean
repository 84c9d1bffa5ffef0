/-
The sections of a Python source.

Each list of the findings that is to be shown has one candidate, and the candidates stand in a fixed
order.  The names that are merely declared, called or used have none: they are for the record.

A candidate is kept if it has items, which is not quite the same as that its list is not empty.  The
writes that nothing reads come as functions, each with its variables, and the items are the
variables; so a function without any would be in the list and in no item.
-/
import CodeSurvey.Findings.Python
import CodeSurvey.Summary.Section

namespace CodeSurvey.PythonFindings

/-- A remark with its line. -/
def issueItem (i : LineIssue) : String := Item.atLine i.line i.message

/-- The writes of one function that nothing reads, one item for each variable. -/
def unusedWriteItems (w : UnusedWrites) : List String :=
  w.names.map (fun v => "Function '" ++ w.function ++ "': " ++ v)

/-- Every section a Python source may have, in order, with or without items. -/
def candidates (r : PythonFindings) : List Section :=
  [Section.withHint
      (.warning "python-unused-functions" "Functions declared but never used" r.unusedFunctions)
      "Remove unused functions to keep the code clean.",
    Section.withHint
      (.warning "python-unused-vars" "Variables declared but never used" r.unusedVars)
      "Remove unused variables to keep the code organized.",
    .warning "python-unused-imports" "Unused imports"
      (r.unusedImports.map (fun i => Item.namedAtLine i.name i.line)),
    Section.withHint
      (.warning "python-docstrings" "Docstring problems" (r.docstringIssues.map issueItem))
      "Add docstrings to document functions and classes.",
    .warning "python-dead-code" "Dead code found" (r.deadCode.map issueItem),
    .warning "python-duplicate-functions" "Duplicate functions"
      (r.duplicateFunctions.map (", ".intercalate ·)),
    .warning "python-unused-writes" "Variables assigned but never read"
      (r.unusedWrites.flatMap unusedWriteItems),
    .warning "python-uninitialized" "Variables used before assignment" r.uninitializedVars,
    .warning "python-style" "Style problems (PEP 8)" (r.styleIssues.map issueItem),
    .warning "python-common-errors" "Common error patterns" (r.commonErrors.map issueItem),
    .warning "python-refactor" "Refactoring suggestions" (r.refactorSuggestions.map issueItem),
    .warning "python-third-party" "Third-party code detected" (r.thirdPartyCode.map issueItem),
    .warning "python-performance" "Possible performance problems"
      (r.performanceIssues.map issueItem),
    .info "python-prints" "print() calls found"
      (r.printStatements.map (fun p => Item.atLine p.line p.code))]

/-- Said when no section is a warning. -/
def success : Section :=
  .success "python-success" "No critical problems found"
    "The analyzed Python code raised no warnings."

/-- The sections that have items; without a warning among them, all is well. -/
def sections (r : PythonFindings) : List Section :=
  let found := r.candidates.filter Section.hasItems
  if found.any Section.isWarning then found else found ++ [success]

end CodeSurvey.PythonFindings
