/-
Running shell scripts.

A session holds the files, the variables, the input that is left and what has been written so far.
Running a script makes a new session of it; the number of steps bounds how deep scripts are nested
within scripts.
-/
import CodeSurvey.FileTree.Writing
import CodeSurvey.Shell.Reader
import CodeSurvey.Shell.Tools

namespace CodeSurvey.Shell

open Text (utf8Bytes decodeUtf8Lossy)

/-- How a program ends. -/
inductive Ending where
  | exited (code : Nat)
  | killed (signal : Nat)
deriving DecidableEq, Repr

def signalNames : List (Nat × String) :=
  [(1, "SIGHUP"), (2, "SIGINT"), (3, "SIGQUIT"), (4, "SIGILL"), (5, "SIGTRAP"), (6, "SIGABRT"),
    (7, "SIGBUS"), (8, "SIGFPE"), (9, "SIGKILL"), (10, "SIGUSR1"), (11, "SIGSEGV"), (12, "SIGUSR2"),
    (13, "SIGPIPE"), (14, "SIGALRM"), (15, "SIGTERM")]

def Ending.text : Ending → String
  | exited code => "exit status: " ++ toString code
  | killed signal =>
    "signal: " ++ toString signal ++
      ((signalNames.lookup signal).map (fun name => " (" ++ name ++ ")")).getD ""

/-- Whether a program ended well. -/
def Ending.isSuccess (e : Ending) : Bool := e == .exited 0

/-- A session. -/
structure Session where
  files : FileTree
  bindings : List (String × String)
  /-- The name the script was called by, then its arguments. -/
  parameters : List String
  input : List UInt8
  output : List UInt8
  errors : List UInt8
  /-- The exit status of the last command. -/
  status : Nat
  /-- How the script was ended from within, if it was. -/
  ended : Option Ending
deriving Repr

/-! ## Words -/

/-- What a part of a word expands to. -/
inductive Piece where
  | fixed (text : String)
  /-- Blanks in the text separate words. -/
  | split (text : String)
  /-- The end of a word. -/
  | boundary

/-- Put a word that has begun behind the finished ones. -/
def closeWord (words : List String) : Option String → List String
  | some word => words ++ [word]
  | none => words

def splitText (words : List String) (word : Option String) :
    List Char → List String × Option String
  | [] => (words, word)
  | c :: rest =>
    if c == ' ' || c == '\t' || c == '\n' then splitText (closeWord words word) none rest
    else splitText words (some ((word.getD "").push c)) rest

def wordsOf (words : List String) (word : Option String) : List Piece → List String
  | [] => closeWord words word
  | .fixed text :: rest => wordsOf words (some (word.getD "" ++ text)) rest
  | .split text :: rest =>
    let (words, word) := splitText words word text.toList
    wordsOf words word rest
  | .boundary :: rest => wordsOf (closeWord words word) none rest

/-- The text that pieces make where words are not split. -/
def textOf (pieces : List Piece) : String :=
  String.join (pieces.map (fun | .fixed text => text | .split text => text | .boundary => " "))

/-- The name that stands for the process itself. -/
def ownProcess : String := "1"

namespace Session

/-- The value of a variable or parameter. -/
def value (s : Session) (name : String) : String :=
  match name with
  | "?" => toString s.status
  | "#" => toString (s.parameters.length - 1)
  | "$" => ownProcess
  | "@" | "*" => " ".intercalate (s.parameters.drop 1)
  | name =>
    match name.toNat? with
    | some n => s.parameters.getD n ""
    | none => (s.bindings.lookup name).getD ""

/-- Set a variable. -/
def assign (s : Session) (name value : String) : Session :=
  { s with bindings := (name, value) :: s.bindings }

def variablePieces (s : Session) (quoted : Bool) (name : String) : List Piece :=
  if quoted && name == "@" then
    (s.parameters.drop 1).map Piece.fixed |>.intersperse .boundary
  else if quoted then [.fixed (s.value name)]
  else [.split (s.value name)]

/-! ## Redirections -/

/-- Where a stream goes. -/
inductive Sink where
  | output
  | errors
  | nowhere
  | file (path : String) (appending : Bool)
deriving DecidableEq, Repr

def sinkOf (path : String) (appending : Bool) : Sink :=
  match path with
  | "/dev/null" => .nowhere
  | "/dev/stdout" => .output
  | "/dev/stderr" => .errors
  | path => .file path appending

def deliver (s : Session) (sink : Sink) (bytes : List UInt8) : Session :=
  match sink with
  | .output => { s with output := s.output ++ bytes }
  | .errors => { s with errors := s.errors ++ bytes }
  | .nowhere => s
  | .file path appending =>
    let before := if appending then ((s.files.read path).toOption).getD [] else []
    match s.files.write path (before ++ bytes) with
    | .ok files => { s with files }
    | .error _ => s

/-- The streams under redirections: input, sinks of output and errors; none if a file cannot be
opened. -/
structure Streams where
  input : List UInt8
  output : Sink
  errors : Sink

/-- A redirection with its target spelled out. -/
def redirect (s : Session) (streams : Streams) (descriptor : Nat) (direction : Direction)
    (target : String) : Option Streams :=
  let set (sink : Sink) : Streams :=
    if descriptor == 2 then { streams with errors := sink }
    else if descriptor == 1 then { streams with output := sink }
    else streams
  match direction with
  | .input =>
    match bytesOf ⟨s.files, streams.input, []⟩ target with
    | .ok bytes => some { streams with input := bytes }
    | .error _ => none
  | .output | .append =>
    let appending := direction == .append
    match sinkOf target appending with
    | .file path appending =>
      match s.files.write path [] with
      | .ok _ => some (set (.file path appending))
      | .error _ => none
    | sink => some (set sink)
  | .copy =>
    if target == "1" then some (set streams.output)
    else if target == "2" then some (set streams.errors)
    else if target == "-" then some (set .nowhere)
    else some streams

/-! ## Commands -/

/-- What a program's reply makes of a session. -/
def settle (s : Session) (reply : Reply) : Session :=
  { s with
    input := reply.input
    output := s.output ++ reply.output
    errors := s.errors ++ reply.errors
    status := reply.status }

/-- The number of a signal, given by number or name. -/
def signalOf? (word : String) : Option Nat :=
  (signalNames.find? fun (number, name) =>
    word == toString number || word == name || "SIG" ++ word == name).map (·.1)

/-- Send a signal, which ends the script if it goes to the script itself. -/
def sendSignal (s : Session) (signal : Nat) (target : String) : Session :=
  if target == ownProcess then { s with ended := some (.killed signal) } else { s with status := 1 }

/-- Send the signal that is named, or else the one that asks to end. -/
def kill (s : Session) (arguments : List String) : Session :=
  let (signal, targets) :=
    match arguments with
    | "-s" :: word :: targets => (signalOf? word, targets)
    | option :: targets =>
      if option.startsWith "-" then (signalOf? (String.ofList (option.toList.drop 1)), targets)
      else (some 15, arguments)
    | [] => (none, [])
  match signal, targets with
  | some signal, [target] => s.sendSignal signal target
  | _, _ => { s with status := 1 }

/-- End the script, with the given status or that of the last command. -/
def exit (s : Session) : List String → Session
  | [] => { s with ended := some (.exited s.status) }
  | code :: _ =>
    match code.toNat? with
    | some n => { s with ended := some (.exited (n % 256)), status := n % 256 }
    | none => { s with ended := some (.exited 2), status := 2 }

/-- End the script with the status of the last command, if it has not ended. -/
def leave (s : Session) : Session := { s with ended := s.ended <|> some (.exited s.status) }

/-- Drop the first argument of the script. -/
def shift (s : Session) : Session :=
  match s.parameters with
  | name :: _ :: rest => { s with parameters := name :: rest, status := 0 }
  | _ => { s with ended := some (.exited 2), status := 2 }

/-- Take over what an isolated session wrote, read and came to. -/
def rejoin (s inner : Session) : Session :=
  let status :=
    match inner.ended with
    | some (.exited code) => code
    | some (.killed n) => 128 + n
    | none => inner.status
  { s with files := inner.files, input := inner.input, output := inner.output,
           errors := inner.errors, status }

def shellNames : List String := ["sh", "dash", "bash"]

/-- The status of a command that is not there. -/
def notFound : Nat := 127

def runWords (s : Session) (words : List String) : Session :=
  match words with
  | [] => s
  | name :: arguments =>
    match name with
    | "exit" => s.exit arguments
    | "kill" => s.kill arguments
    | "shift" => s.shift
    | ":" | "cd" | "set" | "export" | "wait" => { s with status := 0 }
    | _ =>
      match program? (programName name) with
      | some program => s.settle (program ⟨s.files, s.input, arguments⟩)
      | none =>
        { s with
          errors := s.errors ++ utf8Bytes ("sh: 1: " ++ name ++ ": not found\n")
          status := notFound }

/-- Run something under redirections. -/
def under (s : Session) (streams : Streams) (body : Session → Session) : Session :=
  let inner := body { s with input := streams.input, output := [], errors := [] }
  let outer := { inner with output := s.output, errors := s.errors }
  (outer.deliver streams.output inner.output).deliver streams.errors inner.errors

end Session

open Session

mutual

/-- The pieces of a word, with the session after the scripts in it. -/
def expand : Nat → List Part → Session → List Piece × Session
  | 0, _, s => ([], s)
  | _, [], s => ([], s)
  | fuel + 1, part :: rest, s =>
    let (pieces, s) :=
      match part with
      | .text _ chars => ([Piece.fixed (String.ofList chars)], s)
      | .variable quoted name => (s.variablePieces quoted name, s)
      | .output quoted script =>
        let inner := runScript fuel script { s with output := [], ended := none }
        let text := (decodeUtf8Lossy (inner.output.filter (· != 0))).toList
        let text := String.ofList (Text.trimEndOf (· == '\n') text)
        ([if quoted then Piece.fixed text else Piece.split text],
          s.rejoin { inner with output := s.output })
    let (others, s) := expand fuel rest s
    (pieces ++ others, s)

/-- The words of a command, with the session after the scripts in them. -/
def expandAll : Nat → List (List Part) → Session → List String × Session
  | 0, _, s => ([], s)
  | _, [], s => ([], s)
  | fuel + 1, word :: rest, s =>
    let (pieces, s) := expand fuel word s
    let (others, s) := expandAll fuel rest s
    (wordsOf [] none pieces ++ others, s)

/-- Set variables. -/
def assignAll : Nat → List (String × List Part) → Session → Session
  | 0, _, s => s
  | _, [], s => s
  | fuel + 1, (name, value) :: rest, s =>
    let (pieces, s) := expand fuel value s
    assignAll fuel rest (s.assign name (textOf pieces))

/-- The streams under redirections, with the session after the scripts in their targets. -/
def redirectAll : Nat → List Redirection → Streams → Session → Option Streams × Session
  | 0, _, _, s => (none, s)
  | _, [], streams, s => (some streams, s)
  | fuel + 1, .mk descriptor direction target :: rest, streams, s =>
    let (pieces, s) := expand fuel target s
    match s.redirect streams descriptor direction (textOf pieces) with
    | some streams => redirectAll fuel rest streams s
    | none => (none, { s with status := 2 })

def runProgram : Nat → List String → Session → Session
  | 0, _, s => s
  | fuel + 1, words, s =>
    match words with
    | "command" :: word :: rest => s.runWords (word :: rest)
    | "eval" :: texts =>
      match Script.parse? (" ".intercalate texts) with
      | some script => runScript fuel script s
      | none => { s with ended := some (.exited 2), status := 2 }
    | shell :: "-c" :: text :: parameters =>
      if !shellNames.contains (programName shell) then s.runWords words else
      match Script.parse? text with
      | some script =>
        s.rejoin (runScript fuel script
          { s with parameters := if parameters.isEmpty then ["sh"] else parameters })
      | none => { s with status := 2 }
    | words => s.runWords words

def runScript : Nat → Script → Session → Session
  | 0, _, s => s
  | fuel + 1, script, s =>
    if s.ended.isSome then s
    else
      match script with
      | .nothing => s
      | .command assignments words redirections =>
        let status := if words.isEmpty then 0 else s.status
        let (words, s) := expandAll fuel words { s with status }
        let s := assignAll fuel assignments s
        match redirectAll fuel redirections ⟨s.input, .output, .errors⟩ s with
        | (none, s) => s
        | (some streams, s) =>
          s.under streams fun s =>
            match words with
            | "exec" :: word :: rest => (runProgram fuel (word :: rest) s).leave
            | words => runProgram fuel words s
      | .sequence first second => runScript fuel second (runScript fuel first s)
      | .both first second =>
        let s := runScript fuel first s
        if s.status = 0 then runScript fuel second s else s
      | .either first second =>
        let s := runScript fuel first s
        if s.status = 0 then s else runScript fuel second s
      | .pipe first second =>
        let writer := runScript fuel first { s with output := [] }
        let reader := runScript fuel second
          { s with files := writer.files, input := writer.output, errors := writer.errors }
        s.rejoin { reader with input := writer.input }
      | .negation script =>
        let s := runScript fuel script s
        { s with status := if s.status = 0 then 1 else 0 }
      | .group isolated script redirections =>
        match redirectAll fuel redirections ⟨s.input, .output, .errors⟩ s with
        | (none, s) => s
        | (some streams, s) =>
          s.under streams fun s =>
            if isolated then s.rejoin (runScript fuel script s) else runScript fuel script s
      | .choice condition positive negative =>
        let s := runScript fuel condition s
        if s.ended.isSome then s
        else if s.status = 0 then runScript fuel positive { s with status := 0 }
        else runScript fuel negative { s with status := 0 }

end

/-! ## Programs -/

/-- What running a program from outside comes to. -/
structure Outcome where
  output : List UInt8
  ending : Ending
deriving Repr

def Session.outcome (s : Session) : Outcome := ⟨s.output, s.ended.getD (.exited s.status)⟩

/-- The status of a shell that cannot read its script. -/
def badScript : Nat := 2

def runText (files : FileTree) (parameters : List String) (text : String) (input : List UInt8) :
    Outcome :=
  match Script.parse? text with
  | none => ⟨[], .exited badScript⟩
  | some script =>
    (runScript (8 * text.length + 8) script ⟨files, [], parameters, input, [], [], 0, none⟩).outcome

/-- Run the shell with arguments: a script text behind `-c`, or else the path of a script. -/
def runShell (files : FileTree) (arguments : List String) (input : List UInt8) : Outcome :=
  match arguments with
  | "-c" :: text :: parameters =>
    runText files (if parameters.isEmpty then ["sh"] else parameters) text input
  | path :: _ =>
    match files.read path with
    | .ok bytes => runText files arguments (decodeUtf8Lossy bytes) input
    | .error _ => ⟨[], .exited badScript⟩
  | [] => runText files ["sh"] (decodeUtf8Lossy input) []

/-- Run a program with arguments and input; none if there is no such program. -/
def run? (files : FileTree) (name : String) (arguments : List String) (input : List UInt8) :
    Option Outcome :=
  if shellNames.contains (programName name) then some (runShell files arguments input)
  else
    (program? (programName name)).map fun program =>
      let reply := program ⟨files, input, arguments⟩
      ⟨reply.output, .exited reply.status⟩

end CodeSurvey.Shell
