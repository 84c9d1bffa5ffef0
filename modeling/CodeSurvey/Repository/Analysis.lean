/-
The analysis of a repository.

Files come in any order and are sorted by path.  Every language has a tally, also one without files.
Both are made from the list of files alone, so that files that were worked on at the same time leave
the same analysis in whatever order they came in.
-/
import CodeSurvey.Count
import CodeSurvey.Language
import CodeSurvey.SortedMap
import CodeSurvey.Summary.Section

namespace CodeSurvey

/-- The place of a language in tag order. -/
def Language.index : Language → Nat
  | .python => 0
  | .javaScript => 1
  | .html => 2
  | .css => 3
  | .ruby => 4
  | .php => 5
  | .go => 6

instance : Ord Language := ⟨fun a b => compare a.index b.index⟩

theorem Language.compare_eq (a b : Language) : compare a b = compare a.index b.index := rfl

instance : Std.TransOrd Language where
  eq_swap {a b} := by
    rw [Language.compare_eq, Language.compare_eq]
    exact Std.OrientedCmp.eq_swap
  isLE_trans {a b c} hab hbc := by
    rw [Language.compare_eq] at *
    exact Std.TransCmp.isLE_trans hab hbc

/-- The analysis of one file of a repository. -/
structure FileAnalysis where
  /-- Relative to the root, with slashes. -/
  path : String
  language : Language
  summary : StampedSummary
  issuesCount : Nat
deriving DecidableEq, Repr

/-- How many files and issues there are. -/
structure Tally where
  files : Nat
  issues : Nat
deriving DecidableEq, Repr, Inhabited

/-- Count one more file. -/
def Tally.add (t : Tally) (issues : Nat) : Tally := ⟨t.files + 1, t.issues + issues⟩

/-- The analysis of a repository. -/
structure RepositoryAnalysis where
  url : String
  branch : Option String
  filesAnalyzed : Nat
  skipped : Nat
  totalIssues : Nat
  byLanguage : SortedMap Language Tally
  /-- Sorted by path. -/
  files : List FileAnalysis
  /-- RFC 3339. -/
  generatedAt : String
  /-- Whether the walk was stopped before its end. -/
  cancelled : Bool
deriving DecidableEq, Repr

namespace RepositoryAnalysis

/-- A tally of zero for every language. -/
def noTallies : SortedMap Language Tally :=
  SortedMap.ofEntries (Language.all.map (·, ⟨0, 0⟩))

def countFile (tallies : SortedMap Language Tally) (f : FileAnalysis) :
    SortedMap Language Tally :=
  tallies.alter f.language (fun t => (t.getD ⟨0, 0⟩).add f.issuesCount)

/-- Files in ascending order of their paths; files of one path keep their order. -/
def sortedByPath (files : List FileAnalysis) : List FileAnalysis :=
  files.mergeSort (fun a b => decide (a.path ≤ b.path))

/-- What a walk has gone through, besides the files. -/
structure Context where
  url : String
  branch : Option String
  skipped : Nat
  cancelled : Bool
  generatedAt : String
deriving DecidableEq, Repr

def ofFiles (context : Context) (files : List FileAnalysis) : RepositoryAnalysis :=
  let sorted := sortedByPath files
  { url := context.url
    branch := context.branch
    filesAnalyzed := sorted.length
    skipped := context.skipped
    totalIssues := Count.total (sorted.map (·.issuesCount))
    byLanguage := sorted.foldl countFile noTallies
    files := sorted
    generatedAt := context.generatedAt
    cancelled := context.cancelled }

end RepositoryAnalysis

end CodeSurvey
