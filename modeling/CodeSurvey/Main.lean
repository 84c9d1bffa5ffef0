/-
The program.

It lends the command the real system and prints what the command comes to.  A file is read when the
command asks for it, so a command line that is refused leaves its files alone.

Lint tools run in the built-in shell, over the files that were read before.  No other program is
started, so a repository cannot be fetched: that command gets no further than its settings.

What the system reports is passed on by its number.  The faults that the reports know have words of
their own; for any other the words are those of the system.
-/
import CodeSurvey.CommandLine.Run
import CodeSurvey.Timestamp
import Std.Time.DateTime.Timestamp

open CodeSurvey CodeSurvey.CommandLine

namespace CodeSurvey.Program

def numberOf : IO.Error → UInt32 × String
  | .alreadyExists _ number words | .noFileOrDirectory _ number words
  | .invalidArgument _ number words | .permissionDenied _ number words
  | .resourceExhausted _ number words | .inappropriateType _ number words
  | .noSuchThing _ number words | .interrupted _ number words
  | .otherError number words | .resourceBusy number words | .resourceVanished number words
  | .unsupportedOperation number words | .hardwareFault number words
  | .unsatisfiedConstraints number words | .illegalOperation number words
  | .protocolError number words | .timeExpired number words => (number, words)
  | .unexpectedEof => (0, "unexpected end of file")
  | .userError words => (0, words)

/-- Why the system refuses a path.  Some faults come with their number below zero. -/
def faultOf (e : IO.Error) : FileError :=
  let (number, words) := numberOf e
  FileError.ofNumber number.toInt32.toInt.natAbs words

def readFile (path : String) : IO (Except FileError (List UInt8)) := do
  try
    return .ok (← IO.FS.readBinFile path).toList
  catch e => return .error (faultOf e)

/-- Whether a path leads to anything.  It is opened and not read; what may not be opened is there
all the same. -/
def isThere (path : String) : IO Bool := do
  try
    discard (IO.FS.Handle.mk path .read)
    return true
  catch e => return faultOf e ∉ [.missing, .notDirectory]

/-- The time. -/
def now : IO String := do
  let nanoseconds := (← Std.Time.Timestamp.now).toNanosecondsSinceUnixEpoch.val
  return timestamp (nanoseconds.fdiv 1000000000) (nanoseconds.fmod 1000000000).toNat

/-- The values of the environment variables that count. -/
def readEnvironment : IO (List (String × String)) := do
  let mut found := []
  for name in colorVariable :: overrideVariables do
    if let some value ← IO.getEnv name then found := (name, value) :: found
  return found

def readUserSettings : IO (Option (String × Except FileError (List UInt8))) := do
  match ← IO.getEnv "HOME" with
  | none => return none
  | some home =>
    let path := home ++ "/" ++ homeSettingsPath
    if ← isThere path then return some (path, ← readFile path) else return none

/-- The files that tools can see: those that were read before. -/
abbrev Seen := IO.Ref FileTree

/-- The real system.  Nothing is read before it is asked for. -/
def host (seen : Seen) : Host IO where
  has := isThere
  read _ path := do
    let bytes ← readFile path
    if let .ok bytes := bytes then
      seen.modify (fun tree => (tree.add path (.bytes bytes)).toOption.getD tree)
    return bytes
  ofUser := readUserSettings
  environment := do
    let found ← readEnvironment
    return fun name => found.lookup name
  runTool program arguments input := return Shell.run? (← seen.get) program arguments input
  time := now

/-- Write a settings file. -/
def createFile (path : String) : IO (Except CreateError Unit) := do
  if ← isThere path then return .error (.alreadyThere path)
  let parent := FileTree.parentPath path
  try
    if !parent.isEmpty then IO.FS.createDirAll parent
  catch e =>
    -- a file further up is met first, where the path behind it would be refused for it
    match ← readFile parent with
    | .error .notDirectory => return .error (.noDirectory .notDirectory)
    | _ => return .error (.noDirectory (faultOf e))
  try
    IO.FS.writeFile path Settings.template
    return .ok ()
  catch e => return .error (.notWritten (faultOf e))

def run (invocation : Invocation) : IO Outcome := do
  let system := host (← IO.mkRef (.directory []))
  match invocation with
  | .analyze o => analyzeFiles system o
  | .repository o => analyzeRepository system none o
  | .create path => return finishCreate path (← createFile path)

def usageText : String :=
  "usage: code-analyzer analyze FILES... | repo URL | init"

end CodeSurvey.Program

/-- Run the command of the command line. -/
def main (words : List String) : IO UInt32 := do
  match Invocation.read words with
  | .error .version =>
    IO.println (Report.programName ++ " " ++ Report.version)
    return 0
  | .error e =>
    if e.exitCode = 0 then IO.println Program.usageText else IO.eprintln Program.usageText
    return UInt32.ofNat e.exitCode
  | .ok invocation =>
    let outcome ← Program.run invocation
    for text in outcome.errors do
      IO.eprintln text
    IO.print outcome.output
    return UInt32.ofNat outcome.code
