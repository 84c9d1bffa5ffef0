/-
The analysis of a repository as JSON records.

The tallies are an object with the tags of languages as its keys.  A key that is no tag makes the
whole object unreadable, so a tally is never lost on the way.

Two fields may be missing from a record: a branch that was not named, and the mark of a cancelled
walk, which is then taken for one that came to its end.  The sums are written as they were counted,
not as they could be counted again from the files, and reading does not check the one against the
other.
-/
import CodeSurvey.Record.Section
import CodeSurvey.Repository.Analysis

namespace CodeSurvey

open Json (required optional withDefault record? text? nat? bool? list? optionalMember)

namespace FileAnalysis

/-- The fields of a file's analysis. -/
def keys : List String := ["path", "fileType", "summary", "issuesCount"]

def toJson (f : FileAnalysis) : Json :=
  .object [("path", .string f.path), ("fileType", f.language.toJson),
    ("summary", f.summary.toJson), ("issuesCount", .nat f.issuesCount)]

def ofJson? : Json → Option FileAnalysis :=
  record? keys (do
    let path ← required text?
    let language ← required Language.ofJson?
    let summary ← required StampedSummary.ofJson?
    let issuesCount ← required nat?
    return { path, language, summary, issuesCount })

end FileAnalysis

def Tally.toJson (t : Tally) : Json :=
  .object [("files", .nat t.files), ("issues", .nat t.issues)]

def Tally.ofJson? : Json → Option Tally :=
  record? ["files", "issues"] (do
    let files ← required nat?
    let issues ← required nat?
    return { files, issues })

namespace RepositoryAnalysis

def talliesToJson (m : SortedMap Language Tally) : Json :=
  .object (m.entries.map (fun e => (e.1.tag, e.2.toJson)))

def tallyOfMember? (member : String × Json) : Option (Language × Tally) := do
  let language ← Language.ofTag? member.1
  let tally ← Tally.ofJson? member.2
  return (language, tally)

def talliesOfJson? (value : Json) : Option (SortedMap Language Tally) := do
  let members ← value.members?
  let entries ← members.mapM tallyOfMember?
  return SortedMap.ofEntries entries

/-- The fields of a repository's analysis. -/
def keys : List String :=
  ["repoUrl", "branch", "filesAnalyzed", "skipped", "totalIssues", "byLanguage", "files",
    "generatedAt", "cancelled"]

/-- The analysis of a repository as a record; a missing branch is left out. -/
def toJson (r : RepositoryAnalysis) : Json :=
  .object ([("repoUrl", .string r.url)] ++ optionalMember "branch" (r.branch.map .string) ++
    [("filesAnalyzed", .nat r.filesAnalyzed), ("skipped", .nat r.skipped),
      ("totalIssues", .nat r.totalIssues), ("byLanguage", talliesToJson r.byLanguage),
      ("files", .array (r.files.map FileAnalysis.toJson)),
      ("generatedAt", .string r.generatedAt), ("cancelled", .bool r.cancelled)])

def ofJson? : Json → Option RepositoryAnalysis :=
  record? keys (do
    let url ← required text?
    let branch ← withDefault none (Json.nullable? text?)
    let filesAnalyzed ← required nat?
    let skipped ← required nat?
    let totalIssues ← required nat?
    let byLanguage ← required talliesOfJson?
    let files ← required (list? FileAnalysis.ofJson?)
    let generatedAt ← required text?
    let cancelled ← withDefault false bool?
    return { url, branch, filesAnalyzed, skipped, totalIssues, byLanguage, files, generatedAt,
             cancelled })

end RepositoryAnalysis

end CodeSurvey
