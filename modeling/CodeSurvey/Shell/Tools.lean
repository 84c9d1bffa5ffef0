/-
The programs that scripts may call.

A program reads its arguments, its input and the files, and gives what it writes, its exit status
and what it left of the input.

What is left of the input matters, as the next program of a list goes on where the last one stopped.
The programs are those that a command is made of that prints a report, passes its input through or
fails, each with the options that such commands use.
-/
import CodeSurvey.FileTree

namespace CodeSurvey.Shell

open Text (utf8Bytes)

/-- What a program is given. -/
structure Call where
  files : FileTree
  input : List UInt8
  arguments : List String
deriving Repr

/-- What a program gives back. -/
structure Reply where
  output : List UInt8
  errors : List UInt8
  status : Nat
  /-- The input that was not read. -/
  input : List UInt8
deriving Repr

namespace Call

/-- Success, with some output. -/
def succeed (c : Call) (output : List UInt8) : Reply := ⟨output, [], 0, c.input⟩

def fail (c : Call) (status : Nat) (complaint : String) : Reply :=
  ⟨[], utf8Bytes (complaint ++ "\n"), status, c.input⟩

end Call

def newlineByte : UInt8 := 0x0A

/-! ## Escapes -/

/-- Whether a character is an octal digit. -/
def isOctal (c : Char) : Bool := '0' ≤ c && c ≤ '7'

def octalValue (digits : List Char) : Nat :=
  digits.foldl (fun n c => 8 * n + (c.toNat - '0'.toNat)) 0

def letterEscape? (c : Char) : Option UInt8 :=
  match c with
  | 'a' => some 0x07
  | 'b' => some 0x08
  | 'f' => some 0x0C
  | 'n' => some 0x0A
  | 'r' => some 0x0D
  | 't' => some 0x09
  | 'v' => some 0x0B
  | '\\' => some 0x5C
  | _ => none

/-- The bytes of a text with escapes, given the number of steps; `zeroLed` tells whether an octal
escape must begin with a zero that does not count. -/
def unescape (zeroLed : Bool) : Nat → List Char → List UInt8
  | 0, _ => []
  | _, [] => []
  | fuel + 1, '\\' :: c :: rest =>
    match letterEscape? c with
    | some b => b :: unescape zeroLed fuel rest
    | none =>
      if isOctal c && (!zeroLed || c == '0') then
        let digits := (if zeroLed then rest else c :: rest).takeWhile isOctal |>.take 3
        let rest := (if zeroLed then rest else c :: rest).drop digits.length
        UInt8.ofNat (octalValue digits) :: unescape zeroLed fuel rest
      else utf8Bytes (String.ofList ['\\', c]) ++ unescape zeroLed fuel rest
  | fuel + 1, c :: rest => utf8Bytes (String.singleton c) ++ unescape zeroLed fuel rest

/-- The bytes of a text with escapes. -/
def unescaped (zeroLed : Bool) (text : String) : List UInt8 :=
  unescape zeroLed (text.length + 1) text.toList

/-! ## Writing -/

/-- Write the arguments with blanks between them. -/
def echo (c : Call) : Reply :=
  let (arguments, ending) :=
    match c.arguments with
    | "-n" :: rest => (rest, [])
    | arguments => (arguments, [newlineByte])
  c.succeed (unescaped true (" ".intercalate arguments) ++ ending)

/-- A piece of a format. -/
inductive Directive where
  | text (bytes : List UInt8)
  /-- An argument, by the letter that says how it is written. -/
  | argument (letter : Char)
deriving Repr

/-- The pieces of a format, given the number of steps. -/
def directives : Nat → List Char → List Directive
  | 0, _ => []
  | _, [] => []
  | fuel + 1, '%' :: '%' :: rest => .text (utf8Bytes "%") :: directives fuel rest
  | fuel + 1, '%' :: rest =>
    let flags := rest.takeWhile (fun c => c.isDigit || c == '-' || c == '+' || c == '.' || c == ' ')
    match rest.drop flags.length with
    | letter :: rest => .argument letter :: directives fuel rest
    | [] => []
  | fuel + 1, '\\' :: '"' :: rest => .text (utf8Bytes "\"") :: directives fuel rest
  | fuel + 1, '\\' :: '\'' :: rest => .text (utf8Bytes "'") :: directives fuel rest
  | fuel + 1, '\\' :: c :: rest =>
    let octal := if isOctal c then (rest.takeWhile isOctal).take 2 else []
    .text (unescaped false (String.ofList ('\\' :: c :: octal))) ::
      directives fuel (rest.drop octal.length)
  | fuel + 1, c :: rest => .text (utf8Bytes (String.singleton c)) :: directives fuel rest

def formatted (letter : Char) (argument : String) : List UInt8 :=
  match letter with
  | 'b' => unescaped true argument
  | 'c' => utf8Bytes (String.ofList (argument.toList.take 1))
  | 'd' | 'i' | 'u' => utf8Bytes (toString (argument.toInt?.getD 0))
  | _ => utf8Bytes argument

def formatRound : List Directive → List String → List UInt8 × List String
  | [], arguments => ([], arguments)
  | .text bytes :: rest, arguments =>
    let (written, left) := formatRound rest arguments
    (bytes ++ written, left)
  | .argument letter :: rest, arguments =>
    let (written, left) := formatRound rest (arguments.drop 1)
    (formatted letter (arguments.head?.getD "") ++ written, left)

def formatRounds (pieces : List Directive) : Nat → List String → List UInt8
  | 0, _ => []
  | fuel + 1, arguments =>
    let (written, left) := formatRound pieces arguments
    if left.isEmpty || left.length == arguments.length then written
    else written ++ formatRounds pieces fuel left

/-- Write arguments as a format says. -/
def printf (c : Call) : Reply :=
  match (match c.arguments with | "--" :: rest => rest | arguments => arguments) with
  | [] => c.fail 2 "printf: usage: printf format [arg ...]"
  | format :: arguments =>
    let pieces := directives (format.length + 1) format.toList
    c.succeed (formatRounds pieces (arguments.length + 1) arguments)

/-! ## Reading -/

/-- The file that gives zero bytes without end. -/
def zeroFile : String := "/dev/zero"

def bytesOf (c : Call) (path : String) : Except FileError (List UInt8) :=
  if path == "-" || path == "/dev/stdin" then .ok c.input
  else if path == zeroFile then .ok []
  else c.files.read path

/-- Apply a rule to each named file in turn, or to the input if none is named. -/
def overFiles (c : Call) (program : String) (paths : List String)
    (rule : Option String → List UInt8 → List UInt8) : Reply :=
  if paths.isEmpty then { c.succeed (rule none c.input) with input := [] }
  else
    paths.foldl (fun reply path =>
      match bytesOf c path with
      | .ok bytes => { reply with output := reply.output ++ rule (some path) bytes }
      | .error e =>
        { reply with
          errors :=
            reply.errors ++ utf8Bytes (program ++ ": " ++ path ++ ": " ++ e.words ++ "\n")
          status := 1 }) (c.succeed [])

/-- Write files one after the other. -/
def cat (c : Call) : Reply :=
  overFiles c "cat" (c.arguments.filter (· != "-u")) (fun _ bytes => bytes)

/-- A count as an option gives it: what is counted, the number, and the other arguments. -/
def countOption : List String → Char × Nat × List String
  | "-c" :: n :: rest => ('c', n.toNat?.getD 0, rest)
  | "-n" :: n :: rest => ('n', n.toNat?.getD 0, rest)
  | option :: rest =>
    match option.toList with
    | '-' :: 'c' :: digits => ('c', (String.ofList digits).toNat?.getD 0, rest)
    | '-' :: 'n' :: digits => ('n', (String.ofList digits).toNat?.getD 0, rest)
    | '-' :: digits =>
      match (String.ofList digits).toNat? with
      | some n => ('n', n, rest)
      | none => ('n', 10, option :: rest)
    | _ => ('n', 10, option :: rest)
  | [] => ('n', 10, [])

def linesOf : List UInt8 → List (List UInt8)
  | [] => []
  | b :: rest =>
    match linesOf rest with
    | [] => [[b]]
    | line :: lines => if b = newlineByte then [b] :: line :: lines else (b :: line) :: lines

/-- Write the first bytes or lines. -/
def head (c : Call) : Reply :=
  let (unit, n, paths) := countOption c.arguments
  if unit == 'c' && paths == [zeroFile] then c.succeed (List.replicate n 0)
  else overFiles c "head" paths (fun _ bytes =>
    if unit == 'c' then bytes.take n else ((linesOf bytes).take n).flatten)

/-- Write the last bytes or lines. -/
def tail (c : Call) : Reply :=
  let (unit, n, paths) := countOption c.arguments
  overFiles c "tail" paths (fun _ bytes =>
    if unit == 'c' then bytes.drop (bytes.length - n)
    else
      let lines := linesOf bytes
      (lines.drop (lines.length - n)).flatten)

def partsWords (b : UInt8) : Bool := b == 0x20 || (0x09 ≤ b && b ≤ 0x0D)

def wordCount (bytes : List UInt8) : Nat :=
  (bytes.splitBy (fun a b => partsWords a == partsWords b)).countP (fun run => !run.any partsWords)

/-- A number at the right of a column. -/
def column (width n : Nat) : String :=
  let digits := toString n
  String.ofList (List.replicate (width - digits.length) ' ') ++ digits

/-- Count lines, words and bytes. -/
def wc (c : Call) : Reply :=
  let (options, paths) := c.arguments.partition (fun a => a.startsWith "-" && a != "-")
  let wanted := options.flatMap (fun o => o.toList.drop 1)
  let shown (letter : Char) : Bool := wanted.isEmpty || wanted.contains letter
  overFiles c "wc" paths (fun path bytes =>
    let counts :=
      (if shown 'l' then [bytes.count newlineByte] else []) ++
      (if shown 'w' then [wordCount bytes] else []) ++
      (if shown 'm' && wanted.contains 'm' then [(Text.decodeUtf8Lossy bytes).length] else []) ++
      (if shown 'c' then [bytes.length] else [])
    let width := if counts.length == 1 then 0 else 7
    let line := " ".intercalate (counts.map (column width))
    utf8Bytes (line ++ (path.map (" " ++ ·)).getD "" ++ "\n"))

/-- The bytes between two, both included. -/
def byteRange (first last : UInt8) : List UInt8 :=
  (List.range (last.toNat + 1 - first.toNat)).map (fun i => UInt8.ofNat (first.toNat + i))

def setBytes : List UInt8 → List UInt8
  | a :: 0x2D :: b :: rest => byteRange a b ++ setBytes rest
  | a :: rest => a :: setBytes rest
  | [] => []

def setOf (text : String) : List UInt8 := setBytes (unescaped false text)

/-- Replace or delete bytes. -/
def tr (c : Call) : Reply :=
  match c.arguments with
  | ["-d", set] =>
    { c.succeed (c.input.filter (fun b => !(setOf set).contains b)) with input := [] }
  | [before, after] =>
    let before := setOf before
    let after := setOf after
    let replaced (b : UInt8) : UInt8 :=
      match before.idxOf? b, after.getLast? with
      | some i, some last => after.getD i last
      | _, _ => b
    { c.succeed (c.input.map replaced) with input := [] }
  | _ => c.fail 1 "tr: missing operand"

/-! ## Tests -/

def compareNumbers (relation : Int → Int → Bool) (a b : String) : Bool :=
  match a.toInt?, b.toInt? with
  | some a, some b => relation a b
  | _, _ => false

/-- Whether an expression of words is true. -/
def isTrue (files : FileTree) : List String → Bool
  | ["!", a] => a.isEmpty
  | "!" :: a :: b :: rest => !(isTrue files (a :: b :: rest))
  | ["-n", a] => !a.isEmpty
  | ["-z", a] => a.isEmpty
  | ["-e", a] => files.has a
  | ["-f", a] => (files.read a).toOption.isSome
  | ["-d", a] => files.has a && (files.read a).toOption.isNone
  | ["-s", a] => ((files.read a).toOption.getD []).length != 0
  | ["-r", a] => files.has a
  | [a, "=", b] => a == b
  | [a, "!=", b] => a != b
  | [a, "-eq", b] => compareNumbers (fun a b => a == b) a b
  | [a, "-ne", b] => compareNumbers (fun a b => a != b) a b
  | [a, "-lt", b] => compareNumbers (fun a b => a < b) a b
  | [a, "-le", b] => compareNumbers (fun a b => a ≤ b) a b
  | [a, "-gt", b] => compareNumbers (fun a b => b < a) a b
  | [a, "-ge", b] => compareNumbers (fun a b => b ≤ a) a b
  | [a] => !a.isEmpty
  | _ => false

/-- Say by the exit status whether an expression is true. -/
def testWords (c : Call) (words : List String) : Reply :=
  { c.succeed [] with status := if isTrue c.files words then 0 else 1 }

/-- The same behind an opening bracket, which a closing one must match. -/
def testBracket (c : Call) : Reply :=
  if c.arguments.getLast? == some "]" then testWords c c.arguments.dropLast
  else c.fail 2 "[: missing ]"

/-- Wait for as many seconds as the arguments say, which here takes no time. -/
def sleep (c : Call) : Reply :=
  let isTime (word : String) :=
    !word.isEmpty && word.toList.all (fun d => d.isDigit || d == '.')
  if !c.arguments.isEmpty && c.arguments.all isTime then c.succeed []
  else c.fail 1 "sleep: invalid time interval"

def program? (name : String) : Option (Call → Reply) :=
  match name with
  | "cat" => some cat
  | "echo" => some echo
  | "printf" => some printf
  | "true" => some (fun c => c.succeed [])
  | "false" => some (fun c => { c.succeed [] with status := 1 })
  | "head" => some head
  | "tail" => some tail
  | "wc" => some wc
  | "tr" => some tr
  | "test" => some (fun c => testWords c c.arguments)
  | "[" => some testBracket
  | "sleep" => some sleep
  | _ => none

def programDirectories : List String := ["/bin/", "/usr/bin/"]

/-- The name of a program, given with or without its directory. -/
def programName (path : String) : String :=
  match programDirectories.find? (fun d => path.startsWith d) with
  | some d => String.ofList (path.toList.drop d.length)
  | none => path

end CodeSurvey.Shell
