/-
Settings as YAML text.

Every key may be left out, and unknown keys are ignored.  A blank text stands for the defaults.  A
key that is there must fit: a number that is none, or a list where a text is asked for, makes the
whole text unreadable, and no default is put in its place.
-/
import CodeSurvey.Settings
import CodeSurvey.Yaml.Decode
import CodeSurvey.Yaml.Reader

namespace CodeSurvey

open Yaml (memberOr)

def budgetOfYaml? (d : Yaml.Document) : Yaml → Option Nat := d.natBelow? Count.limit

def WalkSettings.ofYaml? (d : Yaml.Document) (value : Yaml) : Option WalkSettings := do
  let members ← d.members? value
  let budget (default : Nat) (key : String) : Option Nat :=
    memberOr default (budgetOfYaml? d) key members
  let maxFiles ← budget WalkSettings.default.maxFiles "max_files"
  let maxFileSize ← budget WalkSettings.default.maxFileSize.toNat "max_file_size"
  let maxTotalSize ← budget WalkSettings.default.maxTotalSize.toNat "max_total_size"
  let concurrency ← budget WalkSettings.default.concurrency "concurrency"
  let excludedPaths ←
    memberOr WalkSettings.default.excludedPaths d.texts? "excluded_paths" members
  return {
    maxFiles, concurrency, excludedPaths
    maxFileSize := maxFileSize.toUInt64
    maxTotalSize := maxTotalSize.toUInt64 }

/-- The settings for an outside lint tool from their members. -/
def LintSettings.ofYaml? (d : Yaml.Document) (value : Yaml) : Option LintSettings := do
  let members ← d.members? value
  let command ← memberOr none (d.nullable? d.texts?) "command" members
  return { command }

def Settings.ofYaml? (d : Yaml.Document) : Option Settings := do
  let members ← d.members? d.root
  let walk ← memberOr .default (WalkSettings.ofYaml? d) "walker" members
  let lint ← memberOr .default (LintSettings.ofYaml? d) "lint" members
  return { walk, lint }

def Settings.parse? (text : String) : Option Settings :=
  if Text.isBlankText text.toList then some .default
  else
    match Yaml.parse? text.toList with
    | none => none
    | some none => some .default
    | some (some document) => ofYaml? document

/-- The text that spells out the default settings. -/
def Settings.template : String :=
  let walk := WalkSettings.default
  "# code-analyzer configuration\n" ++
  "walker:\n" ++
  "  max_files: " ++ toString walk.maxFiles ++ "\n" ++
  "  max_file_size: " ++ toString walk.maxFileSize ++ "\n" ++
  "  max_total_size: " ++ toString walk.maxTotalSize ++ "\n" ++
  "  concurrency: " ++ toString walk.concurrency ++ "\n" ++
  "  excluded_paths: []\n" ++
  "lint:\n" ++
  "  command: null\n"

end CodeSurvey
