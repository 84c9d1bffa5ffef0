/-
The summary of findings.

A summary groups the findings of a source into sections, by rules of the language.  The rules are
much the same in all of them: a fixed list of sections that the language may have, in a fixed order,
of which those with items are kept.  They differ in what is said when there is nothing to say, and
that is why each family of languages has a module of its own.
-/
import CodeSurvey.Findings
import CodeSurvey.Summary.Python
import CodeSurvey.Summary.JavaScript
import CodeSurvey.Summary.Markup
import CodeSurvey.Summary.Overview

namespace CodeSurvey

def Findings.sections : Findings → List Section
  | .python r => r.sections
  | .javaScript r => r.sections
  | .html r => r.sections
  | .css r => r.sections
  | .overview r => r.sections

def summarize (findings : Findings) : Summary :=
  Summary.ofSections findings.sections

end CodeSurvey
