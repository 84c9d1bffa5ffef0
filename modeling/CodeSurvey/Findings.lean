/-
The findings of a source in any language.

Four languages have findings of a kind of their own; the others share the overview, which remembers
the language it was made for.  So the language can be told from the findings (`Findings.language`),
and a summary needs nothing but them.

Whether the source is in the language it is said to be in is never asked: any text can be analyzed
as any language, and there is no text that an analysis refuses.
-/
import CodeSurvey.Findings.Python
import CodeSurvey.Findings.JavaScript
import CodeSurvey.Findings.Markup
import CodeSurvey.Scan.Python
import CodeSurvey.Scan.JavaScript
import CodeSurvey.Scan.Html
import CodeSurvey.Scan.Css
import CodeSurvey.Scan.Overview

namespace CodeSurvey

/-- What a source shows, by the family of its language. -/
inductive Findings where
  | python (r : PythonFindings)
  | javaScript (r : JavaScriptFindings)
  | html (r : HtmlFindings)
  | css (r : CssFindings)
  | overview (r : Overview)
deriving DecidableEq, Repr

def Findings.language : Findings → Language
  | .python _ => .python
  | .javaScript _ => .javaScript
  | .html _ => .html
  | .css _ => .css
  | .overview r => r.language

def analyze (language : Language) (source : String) : Findings :=
  match language with
  | .python => .python (Python.analyze source)
  | .javaScript => .javaScript (JavaScript.analyze source)
  | .html => .html (Html.analyze source)
  | .css => .css (Css.analyze source)
  | .ruby | .php | .go => .overview (Overview.analyze language source)

def analyzeTagged (tag : String) (source : String) : Except UnsupportedLanguage Findings :=
  (Language.ofTag tag).map (analyze · source)

end CodeSurvey
