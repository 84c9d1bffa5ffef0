/-
The commands of the program and their options.

A command line names one of three commands: to analyze local files, to analyze a repository, or to
write a file with the default settings.  Each has a table of options, and what was given is read by
the tables before any of it is looked at, so that a word is taken for an option, a value or an
argument by the same rules everywhere.

The values are texts still.  Whether a format exists, a language is known or a settings file can be
read is asked when the command is run, in the order in which the mistakes are to be told; reading a
command line fails only for its own form.  An option that a command does not use, such as the one
for the amount of logging, is taken by the reader all the same and then dropped.
-/
import CodeSurvey.CommandLine.Options

namespace CodeSurvey.CommandLine

/-- What to analyze local files with. -/
structure AnalyzeOptions where
  files : List String
  language : Option String
  format : String
  /-- The document that style sheets are checked against. -/
  html : Option String
  settings : Option String
  failOnIssues : Bool
deriving DecidableEq, Repr

/-- What to analyze a repository with. -/
structure RepositoryOptions where
  url : String
  branch : Option String
  format : String
  settings : Option String
  /-- Whether progress is hidden. -/
  quiet : Bool
  failOnIssues : Bool
deriving DecidableEq, Repr

/-- A command with its options. -/
inductive Invocation where
  | analyze (options : AnalyzeOptions)
  | repository (options : RepositoryOptions)
  /-- Write a file with the default settings. -/
  | create (path : String)
deriving DecidableEq, Repr

/-- The option that asks for help. -/
def helpOption : OptionSpec := ⟨"help", some 'h', .help⟩

def logOption : OptionSpec := ⟨"log-level", none, .text⟩

def sharedOptions : List OptionSpec := [helpOption, logOption]

def formatOption : OptionSpec := ⟨"format", some 'f', .text⟩

def settingsOption : OptionSpec := ⟨"config", some 'c', .path⟩

def failOption : OptionSpec := ⟨"fail-on-issues", none, .flag⟩

def programSpec : CommandSpec where
  options := sharedOptions ++ [⟨"version", some 'V', .version⟩]
  argument := none
  commands := ["analyze", "repo", "init", "help"]

/-- The command for local files. -/
def analyzeSpec : CommandSpec where
  options := sharedOptions ++
    [formatOption, settingsOption, failOption, ⟨"lang", some 'l', .text⟩, ⟨"html", none, .path⟩]
  argument := some ⟨true, true⟩
  commands := []

def repositorySpec : CommandSpec where
  options := sharedOptions ++
    [formatOption, settingsOption, failOption, ⟨"branch", some 'b', .text⟩,
      ⟨"quiet", some 'q', .flag⟩]
  argument := some ⟨false, false⟩
  commands := []

/-- The command for a settings file. -/
def createSpec : CommandSpec where
  options := sharedOptions ++ [⟨"output", some 'o', .path⟩]
  argument := none
  commands := []

/-- The format where none is given. -/
def defaultFormat : String := "pretty"

/-- The settings file that is written where none is named. -/
def defaultSettingsPath : String := "code-analyzer.yaml"

def AnalyzeOptions.ofGiven (g : Given) : AnalyzeOptions where
  files := g.arguments
  language := g.value? "lang"
  format := (g.value? "format").getD defaultFormat
  html := g.value? "html"
  settings := g.value? "config"
  failOnIssues := g.has "fail-on-issues"

def RepositoryOptions.ofGiven (g : Given) : RepositoryOptions where
  url := (g.arguments.head?).getD ""
  branch := g.value? "branch"
  format := (g.value? "format").getD defaultFormat
  settings := g.value? "config"
  quiet := g.has "quiet"
  failOnIssues := g.has "fail-on-issues"

def readHelp : List String → UsageError
  | [] => .help
  | [word] => if programSpec.commands.contains word then .help else .unknownCommand
  | _ => .unknownCommand

def readNamed (name : String) (words : List String) : Except UsageError Invocation :=
  match name with
  | "analyze" => (readCommand analyzeSpec words).map (fun g => .analyze (.ofGiven g))
  | "repo" => (readCommand repositorySpec words).map (fun g => .repository (.ofGiven g))
  | "init" =>
    (readCommand createSpec words).map
      (fun g => .create ((g.value? "output").getD defaultSettingsPath))
  | _ => .error (readHelp words)

def Invocation.read (words : List String) : Except UsageError Invocation := do
  let (p, named) ← Progress.start.words programSpec words
  match named with
  | some (name, rest) =>
    let invocation ← readNamed name rest
    let _ ← p.settle programSpec
    return invocation
  | none =>
    let p ← p.settle programSpec
    if p.given.options.isEmpty then .error .nothingGiven else .error .missingCommand

end CodeSurvey.CommandLine
