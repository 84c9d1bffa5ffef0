/-
Finding and loading settings.

Settings come from the file that is named, or else from the first that is found, or else they are
the defaults.  The environment overrides them, and they are checked before use, so that whatever
`loadSettings` gives is fit to work with.

A file that is named must be there and be readable; a file that is looked for may be missing.  But a
file that was found and cannot be read ends the search as well: the next one is not tried, since its
settings are not those that were asked for.
-/
import CodeSurvey.Host
import CodeSurvey.Settings.Reader

namespace CodeSurvey

/-- The names of settings files in the working directory, the first found counts. -/
def settingsNames : List String := ["code-analyzer.yaml", ".code-analyzer.yaml"]

def homeSettingsPath : String := ".config/code-analyzer/config.yaml"

/-- Why settings cannot be loaded. -/
inductive LoadError where
  | unreadable (path : String) (reason : FileError)
  | malformed (path : String)
  | unusable (reason : SettingsError)
deriving DecidableEq, Repr

/-- The text shown where settings cannot be loaded. -/
def LoadError.message : LoadError → String
  | unreadable path reason => "failed to read config " ++ path ++ ": " ++ reason.message
  | malformed path => "failed to parse config " ++ path
  | unusable reason => reason.message

def Settings.ofFile (path : String) (bytes : Except FileError (List UInt8)) :
    Except LoadError Settings :=
  match bytes with
  | .error e => .error (.unreadable path e)
  | .ok bytes =>
    match Text.decodeUtf8? bytes with
    | none => .error (.unreadable path .notText)
    | some text =>
      match Settings.parse? text with
      | none => .error (.malformed path)
      | some settings => .ok settings

/-- Find the settings file that counts and read it.  Of the files in the working directory no other
is read. -/
def findSettings {m : Type → Type} [Monad m] (h : Host m) (named : Option String) :
    m (Option (String × Except FileError (List UInt8))) := do
  match named with
  | some path => return some (path, ← h.read .settings path)
  | none =>
    match ← settingsNames.findM? h.has with
    | some path => return some (path, ← h.read .settings path)
    | none => h.ofUser

/-- The settings in the file that was found, or the defaults, as the environment overrides them. -/
def Settings.ofFound (environment : String → Option String)
    (found : Option (String × Except FileError (List UInt8))) : Except LoadError Settings := do
  let settings ←
    match found with
    | some (path, bytes) => Settings.ofFile path bytes
    | none => .ok .default
  let settings := settings.override environment
  match settings.check with
  | .ok () => .ok settings
  | .error e => .error (.unusable e)

def loadSettings {m : Type → Type} [Monad m] (h : Host m) (named : Option String) :
    m (Except LoadError Settings) := do
  let found ← findSettings h named
  return Settings.ofFound (← h.environment) found

end CodeSurvey
