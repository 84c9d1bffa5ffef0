/-
Reading JSON.

A machine reads the tokens of a text.  It keeps the containers that are open, innermost first, each
with what it holds so far; a finished value goes into the innermost one.  So reading is one
recursion on the tokens, and how deep values are nested shows in the length of the stack.
-/
import CodeSurvey.Json.Token

namespace CodeSurvey.Json

/-- A member as it was read: its key, unless that is no text, and its value. -/
abbrev Member := Option String × Json

/-- A container that is still open.  What it holds is kept latest first. -/
inductive Frame where
  | array (items : List Json)
  /-- `key` is that of the member whose value is being read. -/
  | object (members : List Member) (key : Option String)
deriving Repr

/-- What may come next. -/
inductive Expected where
  | value
  /-- Behind an opening bracket: a value or the closing bracket. -/
  | valueOrClose
  /-- Behind an opening brace: a key or the closing brace. -/
  | keyOrClose (members : List Member)
  | key (members : List Member)
  | colon
  /-- Behind a value: a comma, or what closes the container; at top level, nothing. -/
  | more (value : Json)
deriving Repr

/-- The machine: the open containers and what may come next. -/
structure ReadState where
  frames : List Frame
  expected : Expected
deriving Repr

/-- A value behind which the text may end or go on. -/
def finish (frames : List Frame) (value : Json) : Option ReadState :=
  some ⟨frames, .more value⟩

/-- The object that members make, the latest first. -/
def objectOf (members : List Member) : Json :=
  match members.reverse.mapM (fun (key, value) => key.map (·, value)) with
  | some members => .object members
  | none => .broken

def readValue (frames : List Frame) (token : Token) : Option ReadState :=
  match token with
  | .scalar value => finish frames value
  | .openBracket => some ⟨.array [] :: frames, .valueOrClose⟩
  | .openBrace => some ⟨frames, .keyOrClose []⟩
  | _ => none

/-- A token where a key must stand; a key is a string literal. -/
def readKey (frames : List Frame) (members : List Member) (token : Token) : Option ReadState :=
  match token with
  | .scalar (.string key) => some ⟨.object members (some key) :: frames, .colon⟩
  | .scalar .broken => some ⟨.object members none :: frames, .colon⟩
  | _ => none

/-- A token behind a value: it goes into the innermost container. -/
def readMore (frames : List Frame) (value : Json) (token : Token) : Option ReadState :=
  match frames, token with
  | .array items :: rest, .comma => some ⟨.array (value :: items) :: rest, .value⟩
  | .array items :: rest, .closeBracket => finish rest (.array (value :: items).reverse)
  | .object members key :: rest, .comma => some ⟨rest, .key ((key, value) :: members)⟩
  | .object members key :: rest, .closeBrace => finish rest (objectOf ((key, value) :: members))
  | _, _ => none

def readStep (state : ReadState) (token : Token) : Option ReadState :=
  match state.expected, token, state.frames with
  | .value, token, frames => readValue frames token
  | .valueOrClose, .closeBracket, .array items :: rest => finish rest (.array items.reverse)
  | .valueOrClose, token, frames => readValue frames token
  | .keyOrClose members, .closeBrace, frames => finish frames (objectOf members)
  | .keyOrClose members, token, frames => readKey frames members token
  | .key members, token, frames => readKey frames members token
  | .colon, .colon, frames => some ⟨frames, .value⟩
  | .colon, _, _ => none
  | .more value, token, frames => readMore frames value token

def readTokens (state : ReadState) : List Token → Option ReadState
  | [] => some state
  | token :: rest =>
    match readStep state token with
    | none => none
    | some state' => readTokens state' rest

/-- The value of a text, if it is one JSON value with gaps around it. -/
def parse? (text : List Char) : Option Json :=
  match tokens? text with
  | none => none
  | some tokens =>
    match readTokens ⟨[], .value⟩ tokens with
    | some ⟨[], .more value⟩ => some value
    | _ => none

end CodeSurvey.Json
