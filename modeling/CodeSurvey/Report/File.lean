/-
The report on one file.

A report holds the findings of a file and the summary that was made of them, with the time.  Neither
can be told from the other alone: the summary drops what has no section, and the time is nowhere in
the findings.

As a record a report holds both.  As rows it holds the items of the summary, each behind the section
it is from; a section without items leaves no row, and the file is not named at all.
-/
import CodeSurvey.Csv
import CodeSurvey.Json.Writer
import CodeSurvey.Record.Findings

namespace CodeSurvey

/-- All that is known about one analyzed file. -/
structure FileReport where
  language : Language
  fileName : Option String
  findings : Findings
  summary : StampedSummary
deriving DecidableEq, Repr

def FileReport.toJson (r : FileReport) : Json :=
  .object ([("fileType", r.language.toJson)] ++
    Json.optionalMember "fileName" (r.fileName.map .string) ++
    [("result", r.findings.toJson), ("summary", r.summary.toJson)])

namespace Report

/-- A record on lines of its own, with a newline at the end. -/
def jsonText (value : Json) : String := value.pretty ++ "\n"

/-- Rows are separated by semicolons. -/
def csvDialect : Csv.Dialect := ⟨';'⟩

/-- The names of the columns. -/
def csvHeader : List String := ["section_id", "title", "severity", "item"]

def csvRows (s : Section) : List (List String) :=
  s.items.map (fun item => [s.id, s.title, s.severity.name, item])

/-- A summary as rows: the header, then one row for each item of each section. -/
def csvText (summary : StampedSummary) : String :=
  csvDialect.rows (csvHeader :: summary.sections.flatMap csvRows)

end Report

end CodeSurvey
