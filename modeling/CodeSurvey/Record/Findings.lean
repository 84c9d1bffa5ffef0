/-
Overviews, and the findings of any language, as JSON records.

A record of findings does not say which kind it is: the language stands beside it in a report, and
`Findings.ofJson?` is told it.  This keeps the records of one language the same whether they stand
alone or in a report, and it is why reading them back asks for a language that fits.
-/
import CodeSurvey.Findings
import CodeSurvey.Record.Section
import CodeSurvey.Record.Python
import CodeSurvey.Record.JavaScript
import CodeSurvey.Record.Markup

namespace CodeSurvey

open Json (required record? nat? texts?)

namespace Overview

/-- The fields of an overview. -/
def keys : List String := ["language", "lines", "functions", "comments", "info"]

/-- An overview as a record. -/
def toJson (r : Overview) : Json :=
  .object (keys.zip
    [r.language.toJson, .nat r.lines, .strings r.functions, .nat r.comments, .strings r.info])

/-- An overview from its record. -/
def ofJson? : Json → Option Overview :=
  record? keys (do
    let language ← required Language.ofJson?
    let lines ← required nat?
    let functions ← required texts?
    let comments ← required nat?
    let info ← required texts?
    return { language, lines, functions, comments, info })

end Overview

namespace Findings

/-- The record of the findings; it does not say which kind it is. -/
def toJson : Findings → Json
  | .python r => r.toJson
  | .javaScript r => r.toJson
  | .html r => r.toJson
  | .css r => r.toJson
  | .overview r => r.toJson

/-- Findings from the record of the kind that a language has. -/
def ofJson? (language : Language) (value : Json) : Option Findings :=
  match language with
  | .python => (PythonFindings.ofJson? value).map .python
  | .javaScript => (JavaScriptFindings.ofJson? value).map .javaScript
  | .html => (HtmlFindings.ofJson? value).map .html
  | .css => (CssFindings.ofJson? value).map .css
  | .ruby | .php | .go => (Overview.ofJson? value).map .overview

end Findings

end CodeSurvey
