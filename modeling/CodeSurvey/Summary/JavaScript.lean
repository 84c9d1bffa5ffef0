/-
The sections of a JavaScript source.

The candidates stand in a fixed order, from errors over what is unused to what is only worth
knowing, and the sections of a lint run come last.  Sections that inform do not keep the success
away: it is said whenever nothing warns, behind whatever else there is.

A lint run adds two candidates, for its errors and its warnings.  Without a run they are not there;
with a run that found nothing they are there without items, which comes to the same.
-/
import CodeSurvey.Findings.JavaScript
import CodeSurvey.Summary.Section

namespace CodeSurvey.JavaScriptFindings

/-- A declaration with its line. -/
def locationItem (l : NamedLocation) : String := Item.namedAtLine l.name l.line

def lintItem (p : LintProblem) : String :=
  "Line " ++ toString p.line ++ ":" ++ toString p.column ++ " " ++ p.message ++ " (" ++
    p.ruleId.getD "no-rule" ++ ")"

/-- The sections a JavaScript source may have by itself, in order. -/
def ownCandidates (r : JavaScriptFindings) : List Section :=
  [.warning "js-syntax" "Syntax errors" r.syntaxErrors,
    .warning "js-unused-functions" "Unused functions" (r.unusedFunctions.map locationItem),
    .warning "js-unused-vars" "Unused variables" (r.unusedVariables.map locationItem),
    Section.withHint (.warning "js-var" "Use of var" (r.varUsage.map Item.lineOnly))
      "Prefer let or const to declare variables.",
    .warning "js-eval" "Use of eval" (r.evalUsage.map Item.lineOnly),
    .warning "js-document-write" "Use of document.write"
      (r.documentWriteUsage.map Item.lineOnly),
    .warning "js-todo" "TODO/FIXME comments"
      (r.todoComments.map (fun t => Item.namedAtLine t.comment t.line)),
    .warning "js-long-lines" "Lines too long" (r.longLines.map Item.lineOnly),
    .warning "js-magic-numbers" "Magic numbers"
      (r.magicNumbers.map (fun n => Item.namedAtLine n.value n.line)),
    .warning "js-semicolon" "Possibly missing semicolon" (r.semicolonMissing.map Item.lineOnly),
    Section.withHint (.warning "js-double-equals" "Use of ==" (r.doubleEquals.map Item.lineOnly))
      "Prefer === for strict comparisons.",
    .info "js-console" "Use of console.log" (r.consoleLogUsage.map Item.lineOnly),
    .info "js-arrow-functions" "Arrow functions" (r.arrowFunctions.map locationItem),
    .info "js-anonymous-functions" "Anonymous functions" (r.anonymousFunctions.map locationItem)]

/-- The sections of a lint run; problems of other severities are in neither. -/
def lintCandidates (problems : List LintProblem) : List Section :=
  [.warning "js-eslint-errors" "Lint errors" ((problems.filter (·.isError)).map lintItem),
    .warning "js-eslint-warnings" "Lint warnings" ((problems.filter (·.isWarning)).map lintItem)]

/-- Every section a JavaScript source may have, in order, with or without items. -/
def candidates (r : JavaScriptFindings) : List Section :=
  r.ownCandidates ++ (r.lintProblems.map lintCandidates).getD []

/-- Said when no section is a warning. -/
def success : Section :=
  .success "js-success" "No critical problems found" "The analyzed JavaScript raised no warnings."

/-- The sections that have items; without a warning among them, all is well. -/
def sections (r : JavaScriptFindings) : List Section :=
  let found := r.candidates.filter Section.hasItems
  if found.any Section.isWarning then found else found ++ [success]

end CodeSurvey.JavaScriptFindings
