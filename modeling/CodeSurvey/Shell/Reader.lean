/-
Reading shell scripts.

Every reader gives what it read and the rest of the text, and takes the number of steps it may
make, which the length of the text bounds.

Only what lint commands are written with is read: lists, pipelines, groups, conditions, redirections
and words with their quotes and substitutions.  A script that goes beyond that is not run at all,
since a part of it that was understood could do something else than the whole.
-/
import CodeSurvey.Shell.Script

namespace CodeSurvey.Shell

def endsWord (c : Char) : Bool :=
  [' ', '\t', '\n', ';', '&', '|', '(', ')', '<', '>'].contains c

/-- The first character of a variable's name. -/
def isNameStart (c : Char) : Bool := c.isAlpha || c == '_'

/-- The further characters of a variable's name. -/
def isNameChar (c : Char) : Bool := c.isAlphanum || c == '_'

/-- The parameters named by one character. -/
def isSpecial (c : Char) : Bool := c.isDigit || ['?', '#', '@', '*', '$', '!', '-'].contains c

def passBlanks : List Char → List Char
  | ' ' :: rest => passBlanks rest
  | '\t' :: rest => passBlanks rest
  | '\\' :: '\n' :: rest => passBlanks rest
  | '#' :: rest => rest.dropWhile (· != '\n')
  | rest => rest

def passLines : Nat → List Char → List Char
  | 0, text => text
  | fuel + 1, text =>
    match passBlanks text with
    | '\n' :: rest => passLines fuel rest
    | rest => rest

/-- The words that end a script within another. -/
def closers : List String := ["then", "elif", "else", "fi", "\x7d"]

/-- The words that begin scripts which are not supported. -/
def unsupported : List String := ["while", "until", "for", "case", "do", "done", "esac"]

/-- The text of a word without quotes and expansions. -/
def bareWord (text : List Char) : String := String.ofList (text.takeWhile (fun c => !endsWord c))

/-- The name in front of an equals sign, and what follows that. -/
def assignedName? (text : List Char) : Option (String × List Char) :=
  let name := text.takeWhile isNameChar
  match name, text.drop name.length with
  | c :: _, '=' :: rest => if isNameStart c then some (String.ofList name, rest) else none
  | _, _ => none

def markedDigit? : List Char → Option (Nat × List Char)
  | c :: mark :: rest =>
    if c.isDigit && (mark == '<' || mark == '>') then some (c.toNat - '0'.toNat, mark :: rest)
    else none
  | _ => none

def redirectionMark? (text : List Char) : Option (Nat × Direction × List Char) :=
  let (number, text) :=
    match markedDigit? text with
    | some (n, rest) => (some n, rest)
    | none => (none, text)
  match text with
  | '<' :: '<' :: _ => none
  | '<' :: '&' :: rest => some (number.getD 0, .copy, rest)
  | '<' :: rest => some (number.getD 0, .input, rest)
  | '>' :: '>' :: rest => some (number.getD 1, .append, rest)
  | '>' :: '&' :: rest => some (number.getD 1, .copy, rest)
  | '>' :: '|' :: rest => some (number.getD 1, .output, rest)
  | '>' :: rest => some (number.getD 1, .output, rest)
  | _ => none

mutual

def readParts : Nat → List Char → Option (List Part × List Char)
  | 0, _ => none
  | fuel + 1, text =>
    let more (part : Part) (rest : List Char) : Option (List Part × List Char) :=
      (readParts fuel rest).map (fun (parts, rest) => (part :: parts, rest))
    match text with
    | [] => some ([], [])
    | '\\' :: '\n' :: rest => readParts fuel rest
    | '\\' :: c :: rest => more (.text true [c]) rest
    | '\'' :: rest =>
      let quoted := rest.takeWhile (· != '\'')
      match rest.drop quoted.length with
      | _ :: rest => more (.text true quoted) rest
      | [] => none
    | '"' :: rest =>
      match readQuoted fuel rest with
      | some ([.variable true "@"], rest) => more (.variable true "@") rest
      | some (parts, rest) =>
        (readParts fuel rest).map
          (fun (others, rest) => (.text true [] :: parts ++ others, rest))
      | none => none
    | '$' :: rest =>
      match readExpansion false fuel rest with
      | some (part, rest) => more part rest
      | none => none
    | '\x60' :: rest =>
      match readBackquoted false fuel rest with
      | some (part, rest) => more part rest
      | none => none
    | c :: rest => if endsWord c then some ([], c :: rest) else more (.text false [c]) rest

/-- The parts up to a closing quotation mark. -/
def readQuoted : Nat → List Char → Option (List Part × List Char)
  | 0, _ => none
  | fuel + 1, text =>
    let more (part : Part) (rest : List Char) : Option (List Part × List Char) :=
      (readQuoted fuel rest).map (fun (parts, rest) => (part :: parts, rest))
    match text with
    | [] => none
    | '"' :: rest => some ([], rest)
    | '\\' :: '\n' :: rest => readQuoted fuel rest
    | '\\' :: c :: rest =>
      if ['$', '\x60', '"', '\\'].contains c then more (.text true [c]) rest
      else more (.text true ['\\', c]) rest
    | '$' :: rest =>
      match readExpansion true fuel rest with
      | some (part, rest) => more part rest
      | none => none
    | '\x60' :: rest =>
      match readBackquoted true fuel rest with
      | some (part, rest) => more part rest
      | none => none
    | c :: rest => more (.text true [c]) rest

/-- What follows a dollar sign. -/
def readExpansion (quoted : Bool) : Nat → List Char → Option (Part × List Char)
  | 0, _ => none
  | fuel + 1, text =>
    match text with
    | '(' :: '(' :: _ => none
    | '(' :: rest =>
      match readScript fuel rest with
      | some (script, ')' :: rest) => some (.output quoted script, rest)
      | _ => none
    | '{' :: rest =>
      let name := rest.takeWhile (· != '}')
      match name, rest.drop name.length with
      | c :: _, _ :: rest =>
        if name.all isNameChar || (name.length == 1 && isSpecial c) then
          some (.variable quoted (String.ofList name), rest)
        else none
      | _, _ => none
    | c :: rest =>
      if isNameStart c then
        let name := (c :: rest).takeWhile isNameChar
        some (.variable quoted (String.ofList name), (c :: rest).drop name.length)
      else if isSpecial c then some (.variable quoted (String.singleton c), rest)
      else some (.text true ['$'], c :: rest)
    | [] => some (.text true ['$'], [])

/-- A script between backquotes. -/
def readBackquoted (quoted : Bool) : Nat → List Char → Option (Part × List Char)
  | 0, _ => none
  | fuel + 1, text =>
    let inner := text.takeWhile (· != '\x60')
    match readScript fuel inner, text.drop inner.length with
    | some (script, []), _ :: rest => some (.output quoted script, rest)
    | _, _ => none

def readTarget (descriptor : Nat) (direction : Direction) :
    Nat → List Char → Option (Redirection × List Char)
  | 0, _ => none
  | fuel + 1, text =>
    match readParts fuel (passBlanks text) with
    | some ([], _) => none
    | some (target, rest) => some (.mk descriptor direction target, rest)
    | none => none

/-- Redirections behind a group. -/
def readRedirections : Nat → List Char → Option (List Redirection × List Char)
  | 0, _ => none
  | fuel + 1, text =>
    match redirectionMark? (passBlanks text) with
    | none => some ([], text)
    | some (descriptor, direction, rest) =>
      match readTarget descriptor direction fuel rest with
      | none => none
      | some (first, rest) =>
        (readRedirections fuel rest).map (fun (others, rest) => (first :: others, rest))

/-- The assignments, words and redirections of a command, each latest first so far. -/
def readCommand (assignments : List (String × List Part)) (words : List (List Part))
    (redirections : List Redirection) : Nat → List Char → Option (Script × List Char)
  | 0, _ => none
  | fuel + 1, text =>
    let text := passBlanks text
    match redirectionMark? text with
    | some (descriptor, direction, rest) =>
      match readTarget descriptor direction fuel rest with
      | none => none
      | some (found, rest) => readCommand assignments words (found :: redirections) fuel rest
    | none =>
      match (if words.isEmpty then assignedName? text else none) with
      | some (name, rest) =>
        match readParts fuel rest with
        | none => none
        | some (value, rest) =>
          readCommand ((name, value) :: assignments) words redirections fuel rest
      | none =>
        match readParts fuel text with
        | none => none
        | some ([], rest) =>
          if assignments.isEmpty && words.isEmpty && redirections.isEmpty then none
          else some (.command assignments.reverse words.reverse redirections.reverse, rest)
        | some (word, rest) => readCommand assignments (word :: words) redirections fuel rest

def readChoice : Nat → List Char → Option (Script × List Char)
  | 0, _ => none
  | fuel + 1, text =>
    match readScript fuel text with
    | none => none
    | some (condition, rest) =>
      if bareWord rest != "then" then none
      else
        match readScript fuel (rest.drop 4) with
        | none => none
        | some (positive, rest) =>
          if bareWord rest == "fi" then some (.choice condition positive .nothing, rest.drop 2)
          else if bareWord rest == "elif" then
            (readChoice fuel (rest.drop 4)).map
              (fun (negative, rest) => (.choice condition positive negative, rest))
          else if bareWord rest == "else" then
            match readScript fuel (rest.drop 4) with
            | none => none
            | some (negative, rest) =>
              if bareWord rest == "fi" then some (.choice condition positive negative, rest.drop 2)
              else none
          else none

/-- One command, group or choice. -/
def readOne : Nat → List Char → Option (Script × List Char)
  | 0, _ => none
  | fuel + 1, text =>
    let text := passBlanks text
    let closed (isolated : Bool) (script : Script) (rest : List Char) :
        Option (Script × List Char) :=
      (readRedirections fuel rest).map
        (fun (redirections, rest) => (.group isolated script redirections, rest))
    match text with
    | '(' :: rest =>
      match readScript fuel rest with
      | some (script, ')' :: rest) => closed true script rest
      | _ => none
    | _ =>
      if bareWord text == "\x7b" then
        match readScript fuel (text.drop 1) with
        | some (script, rest) =>
          if bareWord rest == "\x7d" then closed false script (rest.drop 1) else none
        | none => none
      else if bareWord text == "if" then readChoice fuel (text.drop 2)
      else if bareWord text == "!" then
        (readOne fuel (text.drop 1)).map (fun (script, rest) => (.negation script, rest))
      else if unsupported.contains (bareWord text) then none
      else readCommand [] [] [] fuel text

/-- Commands joined by pipes. -/
def readPipe : Nat → List Char → Option (Script × List Char)
  | 0, _ => none
  | fuel + 1, text =>
    match readOne fuel text with
    | none => none
    | some (first, rest) =>
      match passBlanks rest with
      | '|' :: '|' :: more => some (first, '|' :: '|' :: more)
      | '|' :: more =>
        (readPipe fuel (passLines fuel more)).map (fun (second, rest) => (.pipe first second, rest))
      | rest => some (first, rest)

/-- Pipes joined by the conditional marks, from the left; `first` has been read. -/
def readJoined (first : Script) : Nat → List Char → Option (Script × List Char)
  | 0, _ => none
  | fuel + 1, text =>
    match passBlanks text with
    | '&' :: '&' :: rest =>
      match readPipe fuel (passLines fuel rest) with
      | some (second, rest) => readJoined (.both first second) fuel rest
      | none => none
    | '|' :: '|' :: rest =>
      match readPipe fuel (passLines fuel rest) with
      | some (second, rest) => readJoined (.either first second) fuel rest
      | none => none
    | rest => some (first, rest)

/-- A script up to a word or bracket that closes it, or to the end of the text. -/
def readScript : Nat → List Char → Option (Script × List Char)
  | 0, _ => none
  | fuel + 1, text =>
    let text := passLines (fuel + 1) text
    if text.isEmpty || text.head? == some ')' || closers.contains (bareWord text) then
      some (.nothing, text)
    else
      match readPipe fuel text with
      | none => none
      | some (first, rest) =>
        match readJoined first fuel rest with
        | none => none
        | some (joined, rest) =>
          let rest := passBlanks rest
          match rest with
          | ';' :: ';' :: _ => none
          | ';' :: more | '\n' :: more | '&' :: more =>
            (readScript fuel more).map (fun (second, rest) => (.sequence joined second, rest))
          | _ => some (joined, rest)

end

def Script.parse? (text : String) : Option Script :=
  match readScript (8 * text.length + 8) text.toList with
  | some (script, []) => some script
  | _ => none

end CodeSurvey.Shell
