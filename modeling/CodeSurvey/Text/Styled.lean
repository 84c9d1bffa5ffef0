/-
Styled text for a terminal.

A style is a list of display codes.  Styled text is wrapped in escape sequences; where the text
itself resets the display, the style is taken up again.  Without colors, text is left as it is.
-/

namespace CodeSurvey.Text

/-- What a display can do to text, each with its code. -/
inductive Effect where
  | bold
  | dimmed
  | red
  | green
  | yellow
  | blue
  | cyan
deriving DecidableEq, Repr

def Effect.code : Effect → Nat
  | bold => 1
  | dimmed => 2
  | red => 31
  | green => 32
  | yellow => 33
  | blue => 34
  | cyan => 36

def escapeSequence (parameters : String) : List Char :=
  '\x1b' :: '[' :: parameters.toList ++ ['m']

def resetSequence : List Char := escapeSequence "0"

def beginSequence (effects : List Effect) : List Char :=
  escapeSequence (";".intercalate (effects.map (fun e => toString e.code)))

/-- Put a text behind every reset in another.  `skip` characters still belong to the reset found
last. -/
def insertAfterResets (insertion : List Char) (skip : Nat) : List Char → List Char
  | [] => []
  | c :: rest =>
    if skip > 1 then c :: insertAfterResets insertion (skip - 1) rest
    else if skip = 1 then c :: insertion ++ insertAfterResets insertion 0 rest
    else if resetSequence.isPrefixOf (c :: rest) then
      c :: insertAfterResets insertion (resetSequence.length - 1) rest
    else c :: insertAfterResets insertion 0 rest

def styled (colors : Bool) (effects : List Effect) (text : String) : String :=
  if colors then
    let opening := beginSequence effects
    String.ofList (opening ++ insertAfterResets opening 0 text.toList ++ resetSequence)
  else text

end CodeSurvey.Text
