/-
Report sections.

A summary groups findings into sections.  Each section has a stable id, a severity and one line of
text per finding, its item; the number of issues is the number of warning sections.

A section is made with its items and may have none; whether it is shown then is for the summary of
a language to say.  The count is not kept beside the sections but counted from them, so a summary
that is put together by `Summary.ofSections` cannot have a wrong one.
-/
import CodeSurvey.Text.Chars

namespace CodeSurvey

/-- How much a section matters. -/
inductive Severity where
  | info
  | warning
  | success
deriving DecidableEq, Repr, Inhabited

namespace Severity

def name : Severity → String
  | info => "info"
  | warning => "warning"
  | success => "success"

def all : List Severity := [info, warning, success]

/-- The severity of a name, in upper or lower case. -/
def ofName? (text : String) : Option Severity :=
  all.find? (fun s => s.name.toList == Text.lowerAscii text.toList)

/-- The text shown for a name that no severity has. -/
def unknownMessage (text : String) : String := "unknown severity: " ++ text

end Severity

/-- A group of findings under one heading. -/
structure Section where
  /-- Stable, such as `python-unused-functions`. -/
  id : String
  title : String
  severity : Severity
  description : Option String
  items : List String
  hint : Option String
deriving DecidableEq, Repr, Inhabited

namespace Section

/-- A section without description and hint. -/
def plain (severity : Severity) (id title : String) (items : List String) : Section :=
  { id, title, severity, description := none, items, hint := none }

/-- A section of findings that count as an issue. -/
def warning (id title : String) (items : List String) : Section :=
  plain .warning id title items

/-- A section of findings that are good to know. -/
def info (id title : String) (items : List String) : Section :=
  plain .info id title items

/-- A section that says all is well. -/
def success (id title text : String) : Section :=
  plain .success id title [text]

/-- Add advice on what to do. -/
def withHint (s : Section) (hint : String) : Section := { s with hint := some hint }

/-- Add a line below the heading. -/
def withDescription (s : Section) (description : String) : Section :=
  { s with description := some description }

/-- Whether the section counts as an issue. -/
def isWarning (s : Section) : Bool := s.severity == .warning

/-- Whether the section has something to say. -/
def hasItems (s : Section) : Bool := !s.items.isEmpty

end Section

/-- The sections of one source and the number of issues among them. -/
structure Summary where
  sections : List Section
  issuesCount : Nat
deriving DecidableEq, Repr, Inhabited

namespace Summary

def ofSections (sections : List Section) : Summary :=
  { sections, issuesCount := sections.countP Section.isWarning }

def section? (s : Summary) (id : String) : Option Section :=
  s.sections.find? (·.id == id)

end Summary

/-- A summary with the time it was made. -/
structure StampedSummary where
  /-- RFC 3339. -/
  generatedAt : String
  issuesCount : Nat
  sections : List Section
deriving DecidableEq, Repr, Inhabited

/-- Stamp a summary. -/
def Summary.stamped (s : Summary) (time : String) : StampedSummary :=
  { generatedAt := time, issuesCount := s.issuesCount, sections := s.sections }

end CodeSurvey

namespace CodeSurvey.Item

def atLine (line : Nat) (message : String) : String :=
  "Line " ++ toString line ++ ": " ++ message

def namedAtLine (name : String) (line : Nat) : String :=
  name ++ " (line " ++ toString line ++ ")"

def lineOnly (line : Nat) : String :=
  "Line " ++ toString line

end CodeSurvey.Item
