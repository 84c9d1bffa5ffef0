/-
Reading globs.

A machine reads one character at a time.  It keeps the branch being read, latest token first, and
the groups that are open around it.  Stars wait for what follows them: a second star makes a pair,
and a pair counts for whole components only where a component begins before it and ends behind it.
-/
import CodeSurvey.Glob

namespace CodeSurvey.GlobReader

/-- A class being read. -/
structure ClassState where
  negated : Bool
  /-- Whether a leading negation mark may still come. -/
  markAllowed : Bool
  /-- The ranges so far, latest first. -/
  ranges : GlobRanges
  /-- Whether a hyphen waits for the end of its range. -/
  pending : Bool
deriving Repr

/-- What the characters read last leave to be decided. -/
inductive Mode where
  | plain
  | escaped
  /-- Behind one star; `before` came before it. -/
  | star (before : Option Char)
  /-- Behind two stars. -/
  | pair (before : Option Char)
  | within (state : ClassState)
deriving Repr

/-- A group that is still open: the branch it stands in, and its finished alternatives. -/
structure OpenGroup where
  outer : List GlobToken
  finished : List (List GlobToken)
deriving Repr

/-- The machine. -/
structure State where
  mode : Mode
  /-- The branch being read, latest token first. -/
  branch : List GlobToken
  /-- Innermost first. -/
  groups : List OpenGroup
  /-- The character read last. -/
  previous : Option Char
deriving Repr

/-- The machine before the first character. -/
def State.start : State := ⟨.plain, [], [], none⟩

namespace State

/-- Add a token to the branch. -/
def push (s : State) (token : GlobToken) : State := { s with branch := token :: s.branch }

/-- Add two stars that are no whole component. -/
def pushPair (s : State) : State := (s.push .star).push .star

/-- Go on in a mode. -/
def enter (s : State) (mode : Mode) : State := { s with mode }

/-- A pair of stars takes the place of the slash before it, and is taken up by such a pair. -/
def replaceSlash (s : State) (token : GlobToken) : State :=
  match s.branch with
  | .leading :: _ => s
  | .trailing :: _ => s
  | _ :: rest => { s with branch := token :: rest }
  | [] => s

def openGroup (s : State) : State :=
  { s with branch := [], groups := ⟨s.branch, []⟩ :: s.groups }

/-- End an alternative; outside groups a comma stands for itself. -/
def comma (s : State) : State :=
  match s.groups with
  | [] => s.push (.text ',')
  | group :: outer =>
    { s with
      branch := []
      groups := { group with finished := s.branch.reverse :: group.finished } :: outer }

def closeGroup (s : State) : Except GlobFault State :=
  match s.groups with
  | [] => .error .unopenedBranches
  | group :: outer =>
    let alternatives := (s.branch.reverse :: group.finished).reverse
    .ok { s with branch := .branches alternatives :: group.outer, groups := outer }

end State

/-- Read a character where nothing waits. -/
def stepPlain (s : State) (c : Char) : Except GlobFault State :=
  match c with
  | '?' => .ok (s.push .any)
  | '*' => .ok (s.enter (.star s.previous))
  | '[' => .ok (s.enter (.within ⟨false, true, [], false⟩))
  | '{' => .ok s.openGroup
  | '}' => s.closeGroup
  | ',' => .ok s.comma
  | '\\' => .ok (s.enter .escaped)
  | c => .ok (s.push (.text c))

/-- Whether a pair of stars has a component's beginning before it. -/
def beginsComponent (s : State) (before : Option Char) : Bool :=
  before == some '/' || (!s.groups.isEmpty && (before == some ',' || before == some '{'))

/-- Read the character behind a pair of stars; a slash may belong to the pair. -/
def stepPair (s : State) (before : Option Char) (c : Char) : Except GlobFault State :=
  if s.branch.isEmpty then
    if c = '/' then .ok (s.push .leading) else stepPlain s.pushPair c
  else if !beginsComponent s before then stepPlain s.pushPair c
  else if c = '/' then .ok (s.replaceSlash .between)
  else if !s.groups.isEmpty && (c == ',' || c == '}') then stepPlain (s.replaceSlash .trailing) c
  else stepPlain s.pushPair c

/-- Add a character to a class: the end of an open range, or a range of its own. -/
def addToClass (state : ClassState) (c : Char) : Except GlobFault ClassState :=
  match state.pending, state.ranges with
  | true, (first, _) :: rest =>
    if c < first then .error (.invalidRange first c)
    else .ok { state with markAllowed := false, ranges := (first, c) :: rest, pending := false }
  | _, ranges =>
    .ok { state with markAllowed := false, ranges := (c, c) :: ranges, pending := false }

/-- The token of a finished class; a hyphen at its end stands for itself. -/
def classToken (state : ClassState) : GlobToken :=
  let ranges := if state.pending then ('-', '-') :: state.ranges else state.ranges
  .oneOf state.negated ranges.reverse

/-- Read a character of a class.  A bracket or a hyphen in first place stands for itself. -/
def stepClass (s : State) (state : ClassState) (c : Char) : Except GlobFault State :=
  if state.markAllowed && (c == '!' || c == '^') then
    .ok (s.enter (.within { state with negated := true, markAllowed := false }))
  else if c = ']' && !state.ranges.isEmpty then .ok ((s.push (classToken state)).enter .plain)
  else if c = '-' && !state.ranges.isEmpty && !state.pending then
    .ok (s.enter (.within { state with pending := true }))
  else (addToClass state c).map (fun next => s.enter (.within next))

/-- Read a character. -/
def step (s : State) (c : Char) : Except GlobFault State :=
  let next : Except GlobFault State :=
    match s.mode with
    | .plain => stepPlain s c
    | .escaped => .ok ((s.push (.text c)).enter .plain)
    | .star before =>
      if c = '*' then .ok (s.enter (.pair before)) else stepPlain ((s.push .star).enter .plain) c
    | .pair before => stepPair (s.enter .plain) before c
    | .within state => stepClass s state c
  next.map (fun next => { next with previous := some c })

/-- Read characters in order. -/
def read (s : State) : List Char → Except GlobFault State
  | [] => .ok s
  | c :: rest =>
    match step s c with
    | .error fault => .error fault
    | .ok next => read next rest

/-- Settle what waits at the end of the text. -/
def settle (s : State) : Except GlobFault State :=
  match s.mode with
  | .plain => .ok s
  | .escaped => .error .danglingEscape
  | .star _ => .ok (s.push .star)
  | .pair before =>
    if s.branch.isEmpty then .ok (s.push .leading)
    else if beginsComponent s before then .ok (s.replaceSlash .trailing)
    else .ok s.pushPair
  | .within _ => .error .unclosedClass

def tokens (text : List Char) : Except GlobFault (List GlobToken) := do
  let s ← read State.start text
  let s ← settle s
  if s.groups.isEmpty then return s.branch.reverse else throw .unclosedBranches

end CodeSurvey.GlobReader

namespace CodeSurvey

def Glob.parse (text : String) : Except GlobError Glob :=
  match GlobReader.tokens text.toList with
  | .ok tokens => .ok ⟨tokens⟩
  | .error fault => .error ⟨text, fault⟩

end CodeSurvey
