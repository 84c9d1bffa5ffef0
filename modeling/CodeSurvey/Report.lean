/-
Reports in the format that was asked for.

There are three formats, and they differ in how they put several reports together.  For a reader
the reports follow one another, each under a heading of its own.  As a record, a single report
stands alone and several make an array; so the shape of the record depends on how many files could
be analyzed, not on how many were named.  Rows do not name their file, and so they are written for
one report only; a command line that asks for the rows of several files is refused before it comes
to that.
-/
import CodeSurvey.Record.Repository
import CodeSurvey.Report.Pretty
import CodeSurvey.Text.Chars
import CodeSurvey.Text.Quoted

namespace CodeSurvey

/-- How a report is laid out. -/
inductive OutputFormat where
  /-- For a reader at a terminal. -/
  | pretty
  | json
  /-- One row per finding. -/
  | csv
deriving DecidableEq, Repr, Inhabited

namespace OutputFormat

/-- The name of a format. -/
def name : OutputFormat → String
  | pretty => "pretty"
  | json => "json"
  | csv => "csv"

def all : List OutputFormat := [pretty, json, csv]

/-- The format of a name, in upper or lower case. -/
def ofName? (text : String) : Option OutputFormat :=
  all.find? (fun f => f.name.toList == Text.lowerAscii text.toList)

def unknownMessage (text : String) : String :=
  "unknown format " ++ Text.quoted text ++ ", must be pretty, json or csv"

end OutputFormat

namespace Report

/-- Reports as one record: a single report stands alone, several make an array. -/
def recordOf : List FileReport → Json
  | [report] => report.toJson
  | reports => .array (reports.map FileReport.toJson)

/-- The reports on several files.  Rows are written for the first report only, since rows do not
name their file. -/
def filesTextIn (format : OutputFormat) (colors : Bool) (reports : List FileReport) : String :=
  match format with
  | .json => jsonText (recordOf reports)
  | .csv => (reports.head?.map (fun r => csvText r.summary)).getD ""
  | .pretty => String.join (reports.map (fileText colors))

end Report

def FileReport.text (report : FileReport) (format : OutputFormat) (colors : Bool) : String :=
  Report.filesTextIn format colors [report]

end CodeSurvey
