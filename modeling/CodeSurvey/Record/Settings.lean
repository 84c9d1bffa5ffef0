/-
Settings and limits as JSON records.

The settings for walks can be read, and every field of theirs has its default, so that an empty
object stands for the defaults.  The others are written and never read here.  The limits are written
without their patterns: a compiled pattern has no text that it could be written as, and the text it
was made from is in the settings.
-/
import CodeSurvey.Json.Decode
import CodeSurvey.Settings

namespace CodeSurvey

open Json (withDefault record? nat? texts?)

/-- A number of bytes. -/
def sizeOfJson? (value : Json) : Option UInt64 := (nat? value).map Nat.toUInt64

namespace WalkSettings

def keys : List String :=
  ["max_files", "max_file_size", "max_total_size", "concurrency", "excluded_paths"]

def toJson (s : WalkSettings) : Json :=
  .object [("max_files", .nat s.maxFiles), ("max_file_size", .nat s.maxFileSize.toNat),
    ("max_total_size", .nat s.maxTotalSize.toNat), ("concurrency", .nat s.concurrency),
    ("excluded_paths", .strings s.excludedPaths)]

/-- The settings for walks from their record, every field of which has a default. -/
def ofJson? : Json → Option WalkSettings :=
  record? keys (do
    let maxFiles ← withDefault WalkSettings.default.maxFiles nat?
    let maxFileSize ← withDefault WalkSettings.default.maxFileSize sizeOfJson?
    let maxTotalSize ← withDefault WalkSettings.default.maxTotalSize sizeOfJson?
    let concurrency ← withDefault WalkSettings.default.concurrency nat?
    let excludedPaths ← withDefault WalkSettings.default.excludedPaths texts?
    return { maxFiles, maxFileSize, maxTotalSize, concurrency, excludedPaths })

end WalkSettings

def LintSettings.toJson (s : LintSettings) : Json :=
  .object [("command", (s.command.map Json.strings).getD .null)]

def Settings.toJson (s : Settings) : Json :=
  .object [("walker", s.walk.toJson), ("lint", s.lint.toJson)]

/-- The numbers of limits as a record. -/
def WalkLimits.toJson (l : WalkLimits) : Json :=
  .object [("max_files", .nat l.maxFiles), ("max_file_size", .nat l.maxFileSize.toNat),
    ("max_total_size", .nat l.maxTotalSize.toNat), ("concurrency", .nat l.concurrency)]

end CodeSurvey
