/-
Running commands.

A command asks a `Host` for what it needs and comes to an exit code, what it prints and what it
complains about.  The options are settled first: a format, a language or settings that cannot be
used end a command before any of its files is read, and the first mistake is the one that is told.

Files are then analyzed one by one, and trouble with one does not keep the others from being
reported.  They are taken in the order of the arguments here.  A run that works on several at a time
reads them in some other order, but an analysis asks for nothing except its own file and its own
lint tool, so it comes to the same and only the order of the effects is another.

`World` holds the answers of a host in advance.  A command that is run against a world comes to an
outcome together with the effects that led there.
-/
import CodeSurvey.CommandLine.Invocation
import CodeSurvey.FileTree.Writing
import CodeSurvey.Lint.Command
import CodeSurvey.Report
import CodeSurvey.Settings.Loading
import CodeSurvey.Walk

namespace CodeSurvey.CommandLine

/-- Where files are looked for. -/
structure FileSource where
  /-- The bytes of the file at a path. -/
  read : String → Except FileError (List UInt8)
  /-- Whether a path leads to anything. -/
  has : String → Bool
  /-- The settings file of the user, by its path and its bytes, if there is one. -/
  ofUser : Option (String × Except FileError (List UInt8))
  /-- The values of environment variables. -/
  environment : String → Option String

/-- Run the version control program with arguments: the files it puts in place, or what it complains
about.  None if there is no such program. -/
abbrev VersionControl := Option (List String → Except String FileTree)

/-- The answers of the world. -/
structure World where
  source : FileSource
  /-- Run a program with arguments and input, if there is such a program. -/
  runTool : String → List String → List UInt8 → Option Shell.Outcome
  versionControl : VersionControl
  time : String

/-- The world as a host that puts down what is read and what is run. -/
def World.host (w : World) : Host Traced where
  has path := pure (w.source.has path)
  read use path := ⟨[.read use path], w.source.read path⟩
  ofUser := ⟨w.source.ofUser.toList.map (fun found => .read .settings found.1), w.source.ofUser⟩
  environment := pure w.source.environment
  runTool program arguments input :=
    ⟨[.run program arguments], w.runTool program arguments input⟩
  time := pure w.time

/-- What a command comes to. -/
structure Outcome where
  code : Nat
  output : String
  /-- The complaints, one to an item. -/
  errors : List String
  /-- The arguments the version control program was called with, if it was called. -/
  cloned : Option (List String)
deriving DecidableEq, Repr

/-- The exit code of success. -/
def successCode : Nat := 0

/-- The exit code where there are issues and those count as failure. -/
def issuesCode : Nat := 1

def errorCode : Nat := 2

def complaint (text : String) : String := "Error: " ++ text

/-- A command that comes to nothing but a complaint. -/
def refusal (text : String) : Outcome := ⟨errorCode, "", [complaint text], none⟩

/-- The exit code of a command that was carried out. -/
def codeFor (failOnIssues : Bool) (issues : Nat) : Nat :=
  if failOnIssues && 0 < issues then issuesCode else successCode

def colorVariable : String := "CLICOLOR_FORCE"

/-- Whether a report is colored; a report that goes to no terminal is not, unless forced. -/
def wantsColors (environment : String → Option String) : Bool :=
  ((environment colorVariable).map (· != "0")).getD false

variable {m : Type → Type} [Monad m]

/-! ## Local files -/

/-- Why a file is not analyzed. -/
inductive FileFault where
  | unknownLanguage
  | unreadable (reason : FileError)
  | empty
deriving DecidableEq, Repr

/-- The text shown for a file that is not analyzed. -/
def FileFault.message (path : String) : FileFault → String
  | unknownLanguage => "cannot determine the language of " ++ path ++ "; pass --lang"
  | unreadable reason => "cannot read " ++ path ++ ": " ++ reason.message
  | empty => path ++ " is empty"

/-- What files are analyzed with. -/
structure FileTask where
  /-- The language of every file, if it is not told by the extension. -/
  forced : Option Language
  /-- The document that style sheets are checked against. -/
  html : Option String
  /-- The command of a lint tool. -/
  lint : Option (List String)
deriving DecidableEq, Repr

/-- Add the problems that a lint tool finds in a script; without its report there are none. -/
def withLint (h : Host m) (command : Option (List String)) (source path : String)
    (findings : Findings) : m Findings := do
  match findings, command with
  | .javaScript f, some command =>
    match ← lintBy h.runTool command source path with
    | .ok problems => return .javaScript (f.withLintProblems problems)
    | .error _ => return .javaScript f
  | findings, _ => return findings

/-- The findings in a source, without those of a lint tool. -/
def plainFindings (task : FileTask) (language : Language) (source : String) : Findings :=
  match language, task.html with
  | .css, some html => .css (Css.analyzeWith source (some html))
  | _, _ => analyze language source

/-- Analyze one file.  A file in no known language is not even read. -/
def askFile (h : Host m) (task : FileTask) (path : String) : m (Except FileFault FileReport) := do
  match task.forced <|> Language.ofPath? path.toList with
  | none => return .error .unknownLanguage
  | some language =>
    match ← h.read .source path with
    | .error e => return .error (.unreadable e)
    | .ok [] => return .error .empty
    | .ok bytes =>
      let source := Text.decodeUtf8Lossy bytes
      let findings ← withLint h task.lint source path (plainFindings task language source)
      let summary := (summarize findings).stamped (← h.time)
      return .ok { language, fileName := some path, findings, summary }

/-- The complaint about a file that was not analyzed. -/
def complaintOn? : String × Except FileFault FileReport → Option String
  | (_, .ok _) => none
  | (path, .error fault) => some (complaint (fault.message path))

/-- What comes of files, each with what its analysis came to. -/
def outcomeOf (format : OutputFormat) (colors failOnIssues : Bool)
    (analyzed : List (String × Except FileFault FileReport)) : Outcome :=
  let reports := analyzed.filterMap (fun file => file.2.toOption)
  let errors := analyzed.filterMap complaintOn?
  { code :=
      if errors.isEmpty then
        codeFor failOnIssues (Count.total (reports.map (fun r => r.summary.issuesCount)))
      else errorCode
    output := Report.filesTextIn format colors reports
    errors
    cloned := none }

def askFiles (h : Host m) (task : FileTask) (format : OutputFormat) (failOnIssues : Bool)
    (paths : List String) : m Outcome := do
  let analyzed ← paths.mapM (fun path => return (path, ← askFile h task path))
  return outcomeOf format (wantsColors (← h.environment)) failOnIssues analyzed

/-- The text of the document that style sheets are checked against. -/
def askDocument (h : Host m) : Option String → m (Except String (Option String))
  | none => return .ok none
  | some path => do
    let text := (← h.read .document path).bind fun bytes =>
      match Text.decodeUtf8? bytes with
      | some text => .ok text
      | none => .error FileError.notText
    match text with
    | .ok text => return .ok (some text)
    | .error e => return .error ((FileFault.unreadable e).message path)

/-- The language that every file is taken to be in. -/
def readLanguage : Option String → Except String (Option Language)
  | none => .ok none
  | some tag =>
    match Language.ofTag tag with
    | .ok language => .ok (some language)
    | .error e => .error e.message

def readFormat (name : String) : Except String OutputFormat :=
  match OutputFormat.ofName? name with
  | some format => .ok format
  | none => .error (OutputFormat.unknownMessage name)

/-- Load settings, with the complaint as a text. -/
def askSettings (h : Host m) (named : Option String) : m (Except String Settings) :=
  return (← loadSettings h named).mapError LoadError.message

/-- What local files are analyzed with; the first mistake counts. -/
def prepareFiles (h : Host m) (o : AnalyzeOptions) :
    ExceptT String m (OutputFormat × FileTask) := do
  let format ← readFormat o.format
  if format = .csv ∧ o.files.length ≠ 1 then throw "csv output supports exactly one file"
  let forced ← readLanguage o.language
  let settings ← ExceptT.mk (askSettings h o.settings)
  let html ← ExceptT.mk (askDocument h o.html)
  return (format, { forced, html, lint := settings.lint.command })

def analyzeFiles (h : Host m) (o : AnalyzeOptions) : m Outcome := do
  match ← (prepareFiles h o).run with
  | .error text => return refusal text
  | .ok (format, task) => askFiles h task format o.failOnIssues o.files

/-- What analyzing local files comes to in a world. -/
def runAnalyze (w : World) (o : AnalyzeOptions) : Outcome := (analyzeFiles w.host o).value

/-! ## Repositories -/

/-- Stands for the directory that a repository is put into. -/
def destinationMark : String := "<dest>"

/-- The arguments for putting a repository into a directory. -/
def cloneArguments (url : String) (branch : Option String) (destination : String) : List String :=
  ["clone", "--depth", "1"] ++
  (branch.map (fun b => ["--branch", b, "--single-branch"])).getD [] ++
  ["--", url, destination]

/-- Put a repository into a directory. -/
def clone (versionControl : VersionControl) (url : String) (branch : Option String) :
    Except WalkError Checkout :=
  match versionControl with
  | none => .error (.cloneFailure url ("failed to run git: " ++ FileError.missing.message))
  | some run =>
    match run (cloneArguments url branch destinationMark) with
    | .error complaint =>
      .error (.cloneFailure url (String.ofList (Text.trim complaint.toList)))
    | .ok tree => .ok (Checkout.ofTree tree)

def walkOver (versionControl : VersionControl) (time : String) (o : RepositoryOptions)
    (limits : WalkLimits) : WalkOutcome :=
  walk { url := o.url, branch := o.branch, limits }
    { makeDirectory := .ok ()
      fetch := clone versionControl o.url o.branch
      removeDirectory := true
      time
      calledOff := false
      calledOffAt := fun _ => false
      actions := [] }

/-- The report on a repository; rows are not made of it. -/
def repositoryText (format : OutputFormat) (colors : Bool) (analysis : RepositoryAnalysis) :
    String :=
  match format with
  | .json => Report.jsonText analysis.toJson
  | _ => Report.repositoryText colors analysis

/-- What a walk comes to.  `fetches` tells whether there is a program to fetch with. -/
def finishWalk (colors fetches : Bool) (o : RepositoryOptions) (format : OutputFormat)
    (walked : WalkOutcome) : Outcome :=
  let cloned :=
    if walked.effects.contains .fetch && fetches then
      some (cloneArguments o.url o.branch destinationMark)
    else none
  match walked.result with
  | .error e => { refusal e.message with cloned }
  | .ok analysis =>
    { code := if analysis.cancelled then errorCode else codeFor o.failOnIssues analysis.totalIssues
      output := repositoryText format colors analysis
      errors :=
        if analysis.cancelled then ["Warning: analysis cancelled; results are partial"] else []
      cloned }

/-- What a repository is walked with; the first mistake counts. -/
def prepareWalk (h : Host m) (o : RepositoryOptions) :
    ExceptT String m (OutputFormat × WalkLimits) := do
  let format ← readFormat o.format
  if format = .csv then throw "csv output is not available for repositories"
  let settings ← ExceptT.mk (askSettings h o.settings)
  let limits ← settings.walk.limits.mapError SettingsError.message
  return (format, limits)

def analyzeRepository (h : Host m) (versionControl : VersionControl) (o : RepositoryOptions) :
    m Outcome := do
  match ← (prepareWalk h o).run with
  | .error text => return refusal text
  | .ok (format, limits) =>
    let walked := walkOver versionControl (← h.time) o limits
    return finishWalk (wantsColors (← h.environment)) versionControl.isSome o format walked

def runRepository (w : World) (o : RepositoryOptions) : Outcome :=
  (analyzeRepository w.host w.versionControl o).value

/-! ## Settings files -/

/-- Why a settings file is not written. -/
inductive CreateError where
  | alreadyThere (path : String)
  | noDirectory (reason : FileError)
  | notWritten (reason : FileError)
deriving DecidableEq, Repr

/-- The complaints where a settings file is not written. -/
def CreateError.complaints : CreateError → List String
  | alreadyThere path =>
    [complaint ("file already exists: " ++ path),
      "Remove it or use --output to specify a different path"]
  | noDirectory reason => [complaint ("failed to create directory: " ++ reason.message)]
  | notWritten reason => [complaint ("failed to write config: " ++ reason.message)]

/-- What is printed when a settings file was written. -/
def createdText (path : String) : String :=
  String.join
    ((["Created " ++ path, "", "Environment variables override the walker budgets:"] ++
      overrideVariables.map ("  " ++ ·)).map (· ++ "\n"))

def finishCreate (path : String) : Except CreateError Unit → Outcome
  | .ok () => ⟨successCode, createdText path, [], none⟩
  | .error e => ⟨errorCode, "", e.complaints, none⟩

/-- Write a settings file into a tree. -/
def createIn (tree : FileTree) (path : String) : Except CreateError FileTree :=
  if tree.has path then .error (.alreadyThere path)
  else
    match tree.makeParent path with
    | .error e => .error (.noDirectory e)
    | .ok tree =>
      (tree.write path (Text.utf8Bytes Settings.template)).mapError CreateError.notWritten

end CodeSurvey.CommandLine
