/-
Reports for a reader at a terminal.

Every report opens with the program's name and version.  Severities and headings are styled; with
colors off the text is the same without the styling.

A report is written from the top down, each part with the line ends that belong to it, and the parts
are put one behind the other.  So the text of several reports is that of each, and a part that has
nothing to say, such as a missing hint, is the empty text.
-/
import CodeSurvey.Report.File
import CodeSurvey.Repository.Analysis
import CodeSurvey.Text.Styled

namespace CodeSurvey.Report

open Text (styled)

def programName : String := "code-analyzer"

def version : String := "0.1.0"

def line (text : String) : String := text ++ "\n"

def heading (colors : Bool) : String :=
  line "" ++ line ("  " ++ styled colors [.bold, .cyan] programName ++ " v" ++ version) ++ line ""

def issueLine (colors : Bool) (issues : Nat) : String :=
  line ("  " ++
    if issues = 0 then styled colors [.green] "✓ No issues"
    else styled colors [.red]
      ("✗ " ++ toString issues ++ " issue" ++ if issues = 1 then "" else "s"))

def severityTag (colors : Bool) : Severity → String
  | .warning => styled colors [.yellow] "WARN"
  | .info => styled colors [.blue] "INFO"
  | .success => styled colors [.green] "OK  "

/-- A line below the heading of a section. -/
def detail (text : String) : String := line ("         " ++ text)

/-- A section with a blank line behind it. -/
def sectionText (colors : Bool) (s : Section) : String :=
  line ("    " ++ severityTag colors s.severity ++ " " ++ styled colors [.bold] s.title ++ "  " ++
    styled colors [.dimmed] s.id) ++
  (s.description.map (fun text => detail (styled colors [.dimmed] text))).getD "" ++
  String.join (s.items.map (fun item => detail ("- " ++ item))) ++
  (s.hint.map (fun hint => detail (styled colors [.dimmed] ("hint: " ++ hint)))).getD "" ++
  line ""

/-- A labelled line of a report's head. -/
def labelled (colors : Bool) (label text : String) : String :=
  line ("  " ++ styled colors [.dimmed] label ++ text)

def fileText (colors : Bool) (r : FileReport) : String :=
  heading colors ++
  (r.fileName.map (labelled colors "File:     ")).getD "" ++
  labelled colors "Language: " r.language.displayName ++
  line "" ++
  issueLine colors r.summary.issuesCount ++
  line "" ++
  String.join (r.summary.sections.map (sectionText colors))

/-- Blanks that bring a text to a width. -/
def fill (width : Nat) (text : String) : String :=
  String.ofList (List.replicate (width - text.length) ' ')

/-- A text at the left of a column. -/
def padRight (width : Nat) (text : String) : String := text ++ fill width text

/-- A number at the right of a column. -/
def padLeft (width n : Nat) : String := fill width (toString n) ++ toString n

def tallyLine (entry : Language × Tally) : String :=
  line ("    " ++ padRight 12 entry.1.displayName ++ " " ++ padLeft 4 entry.2.files ++ " files  " ++
    padLeft 4 entry.2.issues ++ " issues")

def tallyText (colors : Bool) (tallies : List (Language × Tally)) : String :=
  let present := tallies.filter (fun e => 0 < e.2.files)
  if present.isEmpty then ""
  else line ("  " ++ styled colors [.bold] "By language:") ++ String.join (present.map tallyLine) ++
    line ""

/-- A file and its warning sections. -/
def issuesOfFile (colors : Bool) (f : FileAnalysis) : String :=
  line ("    " ++ styled colors [.blue] f.path ++ "  " ++
    styled colors [.dimmed] (toString f.issuesCount ++ " issue(s)")) ++
  String.join ((f.summary.sections.filter Section.isWarning).map
    (fun s => line ("      " ++ s.title ++ " (" ++ toString s.items.length ++ ")")))

def filesText (colors : Bool) (files : List FileAnalysis) : String :=
  let withIssues := files.filter (fun f => 0 < f.issuesCount)
  if withIssues.isEmpty then ""
  else line ("  " ++ styled colors [.bold] "Files with issues" ++ " (" ++
      toString withIssues.length ++ "):") ++
    line "" ++ String.join (withIssues.map (issuesOfFile colors)) ++ line ""

def repositoryText (colors : Bool) (r : RepositoryAnalysis) : String :=
  heading colors ++
  labelled colors "Repository: " r.url ++
  (r.branch.map (labelled colors "Branch:     ")).getD "" ++
  line "" ++
  line ("  Files analyzed: " ++ toString r.filesAnalyzed ++ "  Skipped: " ++ toString r.skipped ++
    "  " ++ if r.cancelled then styled colors [.yellow] "(cancelled)" ++ "  " else "") ++
  issueLine colors r.totalIssues ++
  line "" ++
  tallyText colors r.byLanguage.entries ++
  filesText colors r.files

end CodeSurvey.Report
