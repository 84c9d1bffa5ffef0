/-
Sections and summaries as JSON records.

A severity is written by its name and read by it, in lower case only, although elsewhere the names
of severities are taken in either case: a record is written by a program.  A description or a hint
that is missing is left out, and a null is read as missing.

The number of issues is part of the record of a summary.  It is the number of warning sections when
the summary is made, and it is read back as it stands.
-/
import CodeSurvey.Json.Decode
import CodeSurvey.Language
import CodeSurvey.Summary.Section

namespace CodeSurvey

open Json (required optional withDefault record? text? nat? texts? list? optionalMember)

/-- A language is written as its tag. -/
def Language.toJson (language : Language) : Json := .string language.tag

def Language.ofJson? (value : Json) : Option Language :=
  value.choice?.bind Language.ofTag?

/-- A severity is written as its name. -/
def Severity.toJson (severity : Severity) : Json := .string severity.name

/-- A severity from its name, in lower case. -/
def Severity.ofJson? (value : Json) : Option Severity :=
  value.choice?.bind (fun name => Severity.all.find? (fun s => s.name == name))

namespace Section

/-- The fields of a section. -/
def keys : List String := ["id", "title", "severity", "description", "items", "hint"]

/-- A section as a record; a missing description or hint is left out. -/
def toJson (s : Section) : Json :=
  .object ([("id", .string s.id), ("title", .string s.title), ("severity", s.severity.toJson)] ++
    optionalMember "description" (s.description.map .string) ++
    [("items", .strings s.items)] ++ optionalMember "hint" (s.hint.map .string))

/-- A section from its record. -/
def ofJson? : Json → Option Section :=
  record? keys (do
    let id ← required text?
    let title ← required text?
    let severity ← required Severity.ofJson?
    let description ← withDefault none (Json.nullable? text?)
    let items ← required texts?
    let hint ← withDefault none (Json.nullable? text?)
    return { id, title, severity, description, items, hint })

end Section

def Summary.toJson (s : Summary) : Json :=
  .object
    [("sections", .array (s.sections.map Section.toJson)), ("issuesCount", .nat s.issuesCount)]

namespace StampedSummary

def keys : List String := ["generatedAt", "issuesCount", "sections"]

def toJson (s : StampedSummary) : Json :=
  .object [("generatedAt", .string s.generatedAt), ("issuesCount", .nat s.issuesCount),
    ("sections", .array (s.sections.map Section.toJson))]

def ofJson? : Json → Option StampedSummary :=
  record? keys (do
    let generatedAt ← required text?
    let issuesCount ← required nat?
    let sections ← required (list? Section.ofJson?)
    return { generatedAt, issuesCount, sections })

end StampedSummary

end CodeSurvey
