/-
# Findings stand on their lines

A report sends its reader to a line.  Whatever the language, that line exists, and a finding that
shows a piece of the source shows it from that line (`findings_stand_on_their_lines`).  Numbers come
about in three ways: by going through the lines, by following blocks, and by counting newlines in a
text without comments; each language has a module of its own for its way.
-/
import CodeSurvey.Findings
import CodeSurvey.Proofs.Css.Located
import CodeSurvey.Proofs.Html.Located
import CodeSurvey.Proofs.JavaScript.Located
import CodeSurvey.Proofs.Python.Located

namespace CodeSurvey

open Text

/-- The findings stand on the lines of a source.  An overview counts lines and names none. -/
def Findings.Located (source : String) : Findings → Prop
  | .python r => r.Located (linesOf source)
  | .javaScript r => r.Located (linesOf source)
  | .html r => r.Located (linesOf source)
  | .css r => r.Located (linesOf source) (Css.blankComments (unifyEndings source.toList))
  | .overview _ => True

/-- **Every reported line is the real one**, in every language, and in CSS also where the source is
compared with an HTML document. -/
theorem findings_stand_on_their_lines :
    (∀ language source, (analyze language source).Located source) ∧
    ∀ source html, (Findings.css (Css.analyzeWith source html)).Located source := by
  have hcss : ∀ source html, (Findings.css (Css.analyzeWith source html)).Located source :=
    fun source html => Css.located_findingsOf (unifyEndings source.toList) html
  refine ⟨fun language source => ?_, hcss⟩
  cases language with
  | python => exact Python.located_analyzeLines (linesOf source)
  | javaScript => exact JavaScript.located_analyzeLines (linesOf source)
  | html => exact Html.located_analyzeText (unifyEndings source.toList)
  | css => exact hcss source none
  | ruby | php | go => trivial

end CodeSurvey
