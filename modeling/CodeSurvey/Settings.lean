/-
The settings of the program.

Every setting has a default.  Four budgets may be overridden by environment variables; a variable
that holds no number is ignored.  Settings are checked before they are used, and settings that pass
the check make limits for a walk.
-/
import CodeSurvey.Count
import CodeSurvey.Glob.Reader
import CodeSurvey.Text.Chars
import CodeSurvey.Text.Quoted
import CodeSurvey.Walk.Limits

namespace CodeSurvey

/-- The settings for walks. -/
structure WalkSettings where
  maxFiles : Nat
  maxFileSize : UInt64
  maxTotalSize : UInt64
  concurrency : Nat
  /-- Globs of the paths that are left out. -/
  excludedPaths : List String
deriving DecidableEq, Repr, Inhabited

/-- The default settings for walks. -/
def WalkSettings.default : WalkSettings :=
  { maxFiles := 400
    maxFileSize := 200 * 1024
    maxTotalSize := 6 * 1024 * 1024
    concurrency := 5
    excludedPaths := [] }

/-- The settings for an outside lint tool. -/
structure LintSettings where
  /-- The program and its arguments, if a tool is wanted. -/
  command : Option (List String)
deriving DecidableEq, Repr, Inhabited

/-- The default settings for an outside lint tool. -/
def LintSettings.default : LintSettings := ⟨none⟩

/-- The settings of the program. -/
structure Settings where
  walk : WalkSettings
  lint : LintSettings
deriving DecidableEq, Repr, Inhabited

def Settings.default : Settings := ⟨.default, .default⟩

/-! ## Checks -/

/-- What may be wrong with settings. -/
inductive SettingsError where
  | noFiles
  | noConcurrency
  | noSize
  | badPattern (pattern : String) (reason : GlobError)
  | emptyCommand
deriving DecidableEq, Repr

/-- The text shown for bad settings. -/
def SettingsError.message (e : SettingsError) : String :=
  "invalid config: " ++
    match e with
    | noFiles => "walker.max_files must be at least 1"
    | noConcurrency => "walker.concurrency must be at least 1"
    | noSize => "walker size budgets must be positive"
    | badPattern pattern reason =>
      "invalid excluded_paths pattern " ++ Text.quoted pattern ++ ": " ++ reason.message
    | emptyCommand => "lint.command must not be empty"

def compilePatterns : List String → Except SettingsError (List Glob)
  | [] => .ok []
  | pattern :: rest =>
    match Glob.parse pattern with
    | .error reason => .error (.badPattern pattern reason)
    | .ok glob => (compilePatterns rest).map (glob :: ·)

def WalkSettings.limits (s : WalkSettings) : Except SettingsError WalkLimits :=
  (compilePatterns s.excludedPaths).map fun excluded =>
    { maxFiles := s.maxFiles
      maxFileSize := s.maxFileSize
      maxTotalSize := s.maxTotalSize
      concurrency := s.concurrency
      excluded }

/-- Check settings: the budgets first, then the patterns, then the lint command. -/
def Settings.check (s : Settings) : Except SettingsError Unit :=
  if s.walk.maxFiles = 0 then .error .noFiles
  else if s.walk.concurrency = 0 then .error .noConcurrency
  else if s.walk.maxFileSize = 0 ∨ s.walk.maxTotalSize = 0 then .error .noSize
  else
    match compilePatterns s.walk.excludedPaths with
    | .error e => .error e
    | .ok _ => if s.lint.command = some [] then .error .emptyCommand else .ok ()

/-! ## Environment variables -/

def maxFilesVariable : String := "GIT_ANALYSIS_MAX_FILES"

def maxFileSizeVariable : String := "GIT_ANALYSIS_MAX_FILE_SIZE"

def maxTotalSizeVariable : String := "GIT_ANALYSIS_MAX_TOTAL_SIZE"

/-- The variable for the number of files at a time. -/
def concurrencyVariable : String := "GIT_ANALYSIS_CONCURRENCY"

def overrideVariables : List String :=
  [maxFilesVariable, maxFileSizeVariable, maxTotalSizeVariable, concurrencyVariable]

def decimalOf (digits : List Char) : Nat :=
  digits.foldl (fun n c => 10 * n + (c.toNat - '0'.toNat)) 0

/-- A natural number of 64 bits in decimal digits, with or without a plus sign. -/
def budget? (text : List Char) : Option Nat :=
  let digits :=
    match text with
    | '+' :: rest => rest
    | rest => rest
  if !digits.isEmpty && digits.all Char.isDigit && decimalOf digits < Count.limit then
    some (decimalOf digits)
  else none

/-- What a variable sets a budget to: blanks around the number do not count, and a value that is
no number changes nothing. -/
def overridden (value : Option String) (old : Nat) : Nat :=
  (value.bind (fun text => budget? (Text.trim text.toList))).getD old

/-- The settings under an environment, which gives the values of variables. -/
def Settings.override (s : Settings) (environment : String → Option String) : Settings :=
  { s with
    walk :=
      { s.walk with
        maxFiles := overridden (environment maxFilesVariable) s.walk.maxFiles
        maxFileSize :=
          (overridden (environment maxFileSizeVariable) s.walk.maxFileSize.toNat).toUInt64
        maxTotalSize :=
          (overridden (environment maxTotalSizeVariable) s.walk.maxTotalSize.toNat).toUInt64
        concurrency := overridden (environment concurrencyVariable) s.walk.concurrency } }

end CodeSurvey
