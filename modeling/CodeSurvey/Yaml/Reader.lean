/-
The document of a YAML text.

A text holds at most one document.  Where a value may stand and none is written, the empty plain
scalar stands.  Anchors are numbered as they begin, by how many names were in use before; so a name
in use takes a number that the next new name takes too.  Every reader takes the number of steps it
may make, which the number of tokens bounds.
-/
import CodeSurvey.Yaml.Token

namespace CodeSurvey.Yaml

/-- What has been read of a document. -/
structure ReadState where
  tokens : List Token
  /-- The names of anchors in use, each with the number that it took last. -/
  names : List (String × Nat)
  /-- The anchored values that have ended and their numbers, the anchor that begins last first. -/
  anchored : List (Nat × Yaml)
  /-- What directives make of tag handles. -/
  handles : List (String × String)
deriving Repr

/-- Reads tokens one after the other. -/
abbrev Reading := StateT ReadState Option

namespace Reading

/-- The next token. -/
def peek? : Reading (Option Token) := do return (← get).tokens.head?

/-- Pass the next token. -/
def advance : Reading Unit := modify (fun s => { s with tokens := s.tokens.drop 1 })

/-- Pass the next token if it is the given one. -/
def accept (token : Token) : Reading Bool := do
  if (← peek?) == some token then
    advance
    return true
  else return false

/-- Pass the next token, which must be the given one. -/
def expect (token : Token) : Reading Unit := do
  if !(← accept token) then failure

/-- Whether the next token is one of several. -/
def atOneOf (tokens : List Token) : Reading Bool := do
  return (← peek?).any tokens.contains

/-- What tag handles stand for unless a directive says otherwise. -/
def defaultHandles : List (String × String) := [("!", "!"), ("!!", coreTags)]

def resolveTag (handle suffix : String) : Reading String := do
  if handle.isEmpty then return suffix
  else
    match ((← get).handles ++ defaultHandles).lookup handle with
    | some stem => return stem ++ suffix
    | none => failure

/-- The anchor and the tag in front of a value, in either order. -/
def properties : Reading (Option String × Option String) := do
  match ← peek? with
  | some (.anchor name) =>
    advance
    match ← peek? with
    | some (.tag handle suffix) =>
      advance
      return (some name, some (← resolveTag handle suffix))
    | _ => return (some name, none)
  | some (.tag handle suffix) =>
    advance
    let tag ← resolveTag handle suffix
    match ← peek? with
    | some (.anchor name) =>
      advance
      return (some name, some tag)
    | _ => return (none, some tag)
  | _ => return (none, none)

/-- Begin the value of an anchor, which takes a number. -/
def declare (name : String) : Reading Nat :=
  modifyGet fun s =>
    let number := s.names.length
    (number, { s with names := (name, number) :: s.names.filter (·.1 != name) })

/-- The number of an anchor in use. -/
def numberOf (name : String) : Reading Nat := do
  match (← get).names.lookup name with
  | some number => return number
  | none => failure

/-- End the value of an anchor; `older` anchored values had ended before it began. -/
def settle (number older : Nat) (value : Yaml) : Reading Unit :=
  modify fun s =>
    let later := s.anchored.length - older
    { s with anchored := s.anchored.take later ++ (number, value) :: s.anchored.drop later }

def anchoring (name : Option String) (read : Reading Yaml) : Reading Yaml := do
  match name with
  | none => read
  | some name =>
    let number ← declare name
    let older := (← get).anchored.length
    let value ← read
    settle number older value
    return value

end Reading

open Reading

mutual

/-- A value; `inBlock` tells whether it may be in block style, `hanging` whether a sequence may
stand at the column of the key before it. -/
def readNode (inBlock hanging : Bool) : Nat → Reading Yaml
  | 0 => failure
  | fuel + 1 => do
    match ← peek? with
    | some (.reference name) =>
      advance
      return .reference (← numberOf name)
    | _ =>
      let (anchor, tag) ← properties
      anchoring anchor (readContent inBlock hanging (anchor.isSome || tag.isSome) tag fuel)

/-- A value behind its anchor and tag, which may stand for an empty one. -/
def readContent (inBlock hanging described : Bool) (tag : Option String) : Nat → Reading Yaml
  | 0 => failure
  | fuel + 1 => do
    match ← peek? with
    | some (.scalar style text) =>
      advance
      return .scalar style (tag.filter (· != "!")) text
    | some .flowSequence =>
      advance
      return .sequence (← readFlowItems true fuel)
    | some .flowMapping =>
      advance
      return .mapping (← readFlowMembers true fuel)
    | some .blockEntry =>
      if hanging then return .sequence (← readHangingItems fuel)
      else if described then return .scalar .plain tag ""
      else failure
    | some .blockSequence =>
      if inBlock then
        advance
        return .sequence (← readBlockItems fuel)
      else if described then return .scalar .plain tag ""
      else failure
    | some .blockMapping =>
      if inBlock then
        advance
        return .mapping (← readBlockMembers fuel)
      else if described then return .scalar .plain tag ""
      else failure
    | _ => if described then return .scalar .plain tag "" else failure

/-- A value, or the empty one if one of the given tokens comes first. -/
def readUnless (stops : List Token) (inBlock hanging : Bool) : Nat → Reading Yaml
  | 0 => failure
  | fuel + 1 => do
    if ← atOneOf stops then return nothing else readNode inBlock hanging fuel

def readBlockItems : Nat → Reading (List Yaml)
  | 0 => failure
  | fuel + 1 => do
    if ← accept .blockEntry then
      let item ← readUnless [.blockEntry, .blockEnd] true false fuel
      return item :: (← readBlockItems fuel)
    else
      expect .blockEnd
      return []

def readHangingItems : Nat → Reading (List Yaml)
  | 0 => failure
  | fuel + 1 => do
    if ← accept .blockEntry then
      let item ← readUnless [.blockEntry, .key, .value, .blockEnd] true false fuel
      return item :: (← readHangingItems fuel)
    else return []

def readBlockMembers : Nat → Reading (List (Yaml × Yaml))
  | 0 => failure
  | fuel + 1 => do
    if ← accept .key then
      let key ← readUnless [.key, .value, .blockEnd] true true fuel
      let value ←
        if ← accept .value then readUnless [.key, .value, .blockEnd] true true fuel
        else pure nothing
      return (key, value) :: (← readBlockMembers fuel)
    else
      expect .blockEnd
      return []

/-- The items of a sequence between brackets; a key there makes a mapping of one member.  A key mark
without a key takes the mark behind it along. -/
def readFlowItems (first : Bool) : Nat → Reading (List Yaml)
  | 0 => failure
  | fuel + 1 => do
    if ← accept .flowSequenceEnd then return []
    else
      if !first then expect .flowEntry
      if ← accept .flowSequenceEnd then return []
      else if ← accept .key then
        let bare ← atOneOf [.value, .flowEntry, .flowSequenceEnd]
        if bare then advance
        let key ← if bare then pure nothing else readNode false false fuel
        let value ←
          if ← accept .value then readUnless [.flowEntry, .flowSequenceEnd] false false fuel
          else pure nothing
        return .mapping [(key, value)] :: (← readFlowItems false fuel)
      else
        let item ← readNode false false fuel
        return item :: (← readFlowItems false fuel)

/-- The members of a mapping between braces; a value without key mark is a key on its own. -/
def readFlowMembers (first : Bool) : Nat → Reading (List (Yaml × Yaml))
  | 0 => failure
  | fuel + 1 => do
    if ← accept .flowMappingEnd then return []
    else
      if !first then expect .flowEntry
      if ← accept .flowMappingEnd then return []
      else if ← accept .key then
        let key ← readUnless [.value, .flowEntry, .flowMappingEnd] false false fuel
        let value ←
          if ← accept .value then readUnless [.flowEntry, .flowMappingEnd] false false fuel
          else pure nothing
        return (key, value) :: (← readFlowMembers false fuel)
      else
        let key ← readNode false false fuel
        return (key, nothing) :: (← readFlowMembers false fuel)

end

/-- The directives of a document, given whether a version was named already; none names a handle
again. -/
def readDirectives (versioned : Bool) : Nat → Reading Bool
  | 0 => failure
  | fuel + 1 => do
    match ← peek? with
    | some (.version major minor) =>
      if versioned || major != 1 || !(minor == 1 || minor == 2) then failure
      advance
      readDirectives true fuel
    | some (.tagHandle handle stem) =>
      if (← get).handles.any (·.1 == handle) then failure
      advance
      modify (fun s => { s with handles := (handle, stem) :: s.handles })
      readDirectives versioned fuel
    | _ => return versioned

/-- The value of a document: nothing at all, or one value with or without a marker before it. -/
def readDocument (fuel : Nat) : Reading (Option Yaml) := do
  match ← peek? with
  | none => return none
  | some token =>
    let marked :=
      match token with
      | .version .. | .tagHandle .. | .documentStart => true
      | _ => false
    if marked then
      let _ ← readDirectives false fuel
      expect .documentStart
      match ← peek? with
      | none | some (.version ..) | some (.tagHandle ..) | some .documentStart
      | some .documentEnd => return some nothing
      | _ => return some (← readNode true false fuel)
    else return some (← readNode true false fuel)

/-- The document of a text that holds one; `some none` for a text without any. -/
def parse? (text : List Char) : Option (Option Document) := do
  let tokens ← tokens? text
  let (root, s) ← (readDocument (4 * tokens.length + 4)).run ⟨tokens, [], [], []⟩
  if s.tokens.all (· == .documentEnd) then return root.map (⟨·, s.anchored⟩) else none

end CodeSurvey.Yaml
