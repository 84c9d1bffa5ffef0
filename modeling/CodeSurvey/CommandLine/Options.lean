/-
Reading command line arguments.

A command names its options and its arguments.  A value may follow its option as the next word,
behind an equals sign, or behind a short option at once; two hyphens end the options.  What was read
last is settled when the next option or argument begins, so of two mistakes the earlier one counts,
but for a word that looks like an option and is none, which counts at once.
-/

namespace CodeSurvey.CommandLine

/-- What an option does. -/
inductive OptionKind where
  /-- It is there or not. -/
  | flag
  /-- It takes a text. -/
  | text
  /-- It takes a path, which is not empty. -/
  | path
  | help
  | version
deriving DecidableEq, Repr

/-- An option. -/
structure OptionSpec where
  name : String
  short : Option Char
  kind : OptionKind
deriving DecidableEq, Repr

def OptionSpec.takesValue (o : OptionSpec) : Bool := o.kind == .text || o.kind == .path

/-- The arguments of a command that are no options; at least one must be given. -/
structure ArgumentSpec where
  /-- Whether there may be several. -/
  many : Bool
  /-- Whether they are paths, which are not empty. -/
  paths : Bool
deriving DecidableEq, Repr

/-- A command. -/
structure CommandSpec where
  options : List OptionSpec
  argument : Option ArgumentSpec
  /-- The names of the commands under this one. -/
  commands : List String
deriving Repr

/-- How a command line can be wrong, or ask for nothing but information. -/
inductive UsageError where
  | help
  | version
  /-- Nothing was given at all. -/
  | nothingGiven
  | missingCommand
  | missingArgument
  | unknownArgument
  | unknownCommand
  /-- A value is missing or empty. -/
  | invalidValue
  /-- A flag was given a value. -/
  | tooManyValues
  /-- An option was given twice. -/
  | conflict
deriving DecidableEq, Repr

/-- The exit code: asking for information is no error. -/
def UsageError.exitCode : UsageError → Nat
  | help | version => 0
  | _ => 2

/-- What was given: options with their values, flags with an empty one, and arguments. -/
structure Given where
  options : List (String × String)
  arguments : List String
deriving DecidableEq, Repr

namespace Given

def value? (g : Given) (name : String) : Option String := g.options.lookup name

/-- Whether a flag was given. -/
def has (g : Given) (name : String) : Bool := (g.value? name).isSome

end Given

/-- What was read last and is not settled yet. -/
inductive Pending where
  | nothing
  /-- An option, with its value if that has come. -/
  | option (spec : OptionSpec) (value : Option String)
  | arguments (values : List String)
deriving Repr

/-- How far reading has come. -/
structure Progress where
  given : Given
  pending : Pending
  /-- Whether two hyphens have ended the options. -/
  literal : Bool
deriving Repr

namespace Progress

/-- Nothing read. -/
def start : Progress := ⟨⟨[], []⟩, .nothing, false⟩

def take (p : Progress) (o : OptionSpec) (value : String) : Except UsageError Progress :=
  if p.given.has o.name then .error .conflict
  else if o.kind = .path ∧ value = "" then .error .invalidValue
  else
    .ok { p with
      given := { p.given with options := p.given.options ++ [(o.name, value)] }
      pending := .nothing }

/-- Settle what was read last. -/
def settle (spec : CommandSpec) (p : Progress) : Except UsageError Progress :=
  match p.pending with
  | .nothing => .ok p
  | .option _ none => .error .invalidValue
  | .option o (some value) => p.take o value
  | .arguments values =>
    if spec.argument.any (·.paths) && values.contains "" then .error .invalidValue
    else
      .ok { p with
        given := { p.given with arguments := p.given.arguments ++ values }
        pending := .nothing }

def meet (spec : CommandSpec) (p : Progress) (o : OptionSpec) : Except UsageError Progress := do
  let p ← p.settle spec
  match o.kind with
  | .help => .error .help
  | .version => .error .version
  | .flag => p.take o ""
  | .text | .path => .ok { p with pending := .option o none }

def meetWith (spec : CommandSpec) (p : Progress) (o : OptionSpec) (value : String) :
    Except UsageError Progress := do
  let p ← p.settle spec
  p.take o value

/-- Read a long option behind its hyphens. -/
def long (spec : CommandSpec) (p : Progress) (text : List Char) : Except UsageError Progress :=
  let name := String.ofList (text.takeWhile (· != '='))
  match spec.options.find? (·.name == name), text.drop name.length with
  | none, _ => .error .unknownArgument
  | some o, [] => p.meet spec o
  | some o, _ :: value =>
    if o.takesValue then p.meetWith spec o (String.ofList value) else .error .tooManyValues

/-- Read short options behind their hyphen. -/
def short (spec : CommandSpec) (p : Progress) : List Char → Except UsageError Progress
  | [] => .ok p
  | c :: rest =>
    match spec.options.find? (·.short == some c) with
    | none => .error .unknownArgument
    | some o =>
      if o.takesValue then
        match rest with
        | [] => p.meet spec o
        | '=' :: value => p.meetWith spec o (String.ofList value)
        | value => p.meetWith spec o (String.ofList value)
      else
        match p.meet spec o with
        | .error e => .error e
        | .ok p => p.short spec rest

/-- How many arguments were read. -/
def argumentCount (p : Progress) : Nat :=
  p.given.arguments.length +
    match p.pending with
    | .arguments values => values.length
    | _ => 0

/-- The mistake that an argument too many is. -/
def surplus (spec : CommandSpec) (p : Progress) (word : String) : UsageError :=
  if spec.commands.isEmpty || (p.literal && spec.commands.contains word) then .unknownArgument
  else .unknownCommand

def argument (spec : CommandSpec) (p : Progress) (word : String) : Except UsageError Progress :=
  match spec.argument, p.pending with
  | none, _ => .error (p.surplus spec word)
  | some a, .arguments values =>
    if a.many then .ok { p with pending := .arguments (values ++ [word]) }
    else .error (p.surplus spec word)
  | some a, _ =>
    if a.many || p.argumentCount = 0 then
      (p.settle spec).map (fun p => { p with pending := .arguments [word] })
    else .error (p.surplus spec word)

/-- Read a word that belongs to the command itself. -/
def word (spec : CommandSpec) (p : Progress) (word : String) : Except UsageError Progress :=
  if p.literal then p.argument spec word
  else
    match word.toList, p.pending with
    | ['-', '-'], _ => .ok { p with literal := true }
    | '-' :: '-' :: name, _ => p.long spec name
    | '-' :: c :: rest, _ => p.short spec (c :: rest)
    | _, .option o none => .ok { p with pending := .option o (some word) }
    | _, _ => p.argument spec word

def mayNameCommand (p : Progress) : Bool :=
  !p.literal &&
    match p.pending with
    | .option _ none => false
    | _ => true

/-- Read words up to the name of a command under this one; that name comes with the words behind
it. -/
def words (spec : CommandSpec) (p : Progress) :
    List String → Except UsageError (Progress × Option (String × List String))
  | [] => .ok (p, none)
  | word :: rest =>
    if p.mayNameCommand && spec.commands.contains word then .ok (p, some (word, rest))
    else
      match p.word spec word with
      | .error e => .error e
      | .ok p => p.words spec rest

end Progress

def readCommand (spec : CommandSpec) (words : List String) : Except UsageError Given := do
  let (p, _) ← Progress.start.words spec words
  let p ← p.settle spec
  if spec.argument.isSome && p.given.arguments.isEmpty then .error .missingArgument
  else .ok p.given

end CodeSurvey.CommandLine
