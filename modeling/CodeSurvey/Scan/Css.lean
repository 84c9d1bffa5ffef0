/-
The findings of a CSS source.

Comments are blanked first.  A block is a head without braces, an opening brace, a body without
braces and a closing brace; of nested braces only the innermost make a block.  The selector is the
part of the head behind its last semicolon.
-/
import CodeSurvey.Pattern.Search
import CodeSurvey.Text.Lines
import CodeSurvey.Findings.Markup
import CodeSurvey.NameSet

namespace CodeSurvey.Css

open Text Pattern

/-- Properties that raise no remark. -/
def knownProperties : List String :=
  ["color", "background", "background-color", "font-size", "font-family",
    "margin", "padding", "border", "border-radius", "width", "height",
    "display", "position", "top", "left", "right", "bottom", "text-align",
    "line-height", "list-style-type", "max-width", "min-width", "max-height",
    "min-height", "overflow", "z-index", "box-shadow", "opacity", "transition",
    "cursor", "float", "clear", "padding-left", "flex", "flex-direction",
    "justify-content", "align-items", "gap"]

/-! ## Patterns -/

/-- A comment that is closed: it ends at the first closer. -/
def commentPattern : Pattern := literal "/*" ++ few (fun _ => true) ++ literal "*/"

/-- Any character but a brace. -/
def notBrace (c : Char) : Bool := c != '{' && c != '}'

/-- A block; group 1 is its head, group 2 its body. -/
def blockPattern : Pattern :=
  group 1 (some1 notBrace) ++ char '{' ++ group 2 (many notBrace) ++ char '}'

/-- Whether a character may stand in a selector name. -/
def isNameChar (c : Char) : Bool := isWordChar c || c == '-'

/-- The mark of a class or an id. -/
def isMark (c : Char) : Bool := c == '.' || c == '#'

/-- A selector of one class, id or element. -/
def simpleSelector : Pattern :=
  textStart ++ optional (one isMark) ++ one isNameStart ++ many isNameChar ++ textEnd

/-- The first class or id of a selector that begins with one; group 1 is the name. -/
def selectorName : Pattern := textStart ++ one isMark ++ group 1 (some1 isNameChar)

/-- An attribute of an HTML document in double quotes; group 1 is its value. -/
def attributeValue (name : String) : Pattern :=
  literal name ++ literal "=\"" ++ group 1 (some1 (· != '"')) ++ char '"'

/-! ## Comments -/

/-- What a character of a comment becomes. -/
def blanked (c : Char) : Char := if c = '\n' then '\n' else ' '

/-- The text with the given matches blanked.  `skip` characters still belong to the match found
last. -/
def blankMatches (skip offset : Nat) : List Match → List Char → List Char
  | _, [] => []
  | found, c :: rest =>
    if skip > 0 then blanked c :: blankMatches (skip - 1) (offset + 1) found rest
    else
      match found with
      | m :: later =>
        if m.start = offset then
          blanked c :: blankMatches (m.stop - offset - 1) (offset + 1) later rest
        else c :: blankMatches 0 (offset + 1) (m :: later) rest
      | [] => c :: blankMatches 0 (offset + 1) [] rest

/-- Turn closed comments into spaces, keeping newlines. -/
def blankComments (text : List Char) : List Char :=
  blankMatches 0 0 (commentPattern.findAll text) text

/-! ## Blocks -/

/-- A block with a selector. -/
structure Block where
  selector : String
  /-- The line the selector begins on. -/
  line : Nat
  body : List Char
  /-- The line the body begins on. -/
  bodyLine : Nat
deriving DecidableEq, Repr

/-- The line of a place in a text. -/
def lineOf (text : List Char) (offset : Nat) : Nat :=
  (text.take offset).count '\n' + 1

/-- The part of a head behind its last semicolon. -/
def afterSemicolon (head : List Char) : List Char :=
  (head.reverse.takeWhile (· != ';')).reverse

/-- The block of a match, unless its selector is blank. -/
def blockOf? (text : List Char) (m : Match) : Option Block :=
  match m.group? 1, m.group? 2 with
  | some head, some body =>
    let raw := afterSemicolon head.text
    let selector := trim raw
    if selector.isEmpty then none
    else
      let start := head.stop.offset - (trimStartOf isBlank raw).length
      some ⟨String.ofList selector, lineOf text start, body.text, lineOf text body.start.offset⟩
  | _, _ => none

def blocks (text : List Char) : List Block :=
  (blockPattern.findAll text).filterMap (blockOf? text)

/-! ## Declarations -/

/-- A declaration, or what stands in the place of one. -/
structure Fragment where
  line : Nat
  /-- The text without outer blanks; not empty. -/
  text : List Char
deriving DecidableEq, Repr

/-- The fragments of a line: what stands between its semicolons, blanks apart. -/
def lineFragments (number : Nat) (line : Line) : List Fragment :=
  (((splitAt ';' line).map trim).filter (fun text => !text.isEmpty)).map (⟨number, ·⟩)

/-- The fragments of a block's body. -/
def Block.fragments (b : Block) : List Fragment :=
  eachLine lineFragments b.bodyLine (splitLines b.body)

/-- The property a fragment declares: what stands before its first colon. -/
def Fragment.property? (f : Fragment) : Option String :=
  if f.text.contains ':' then some (String.ofList (trim (before (· == ':') f.text))) else none

/-- The remark on a fragment without a colon. -/
def Block.invalid? (b : Block) (f : Fragment) : Option PropertyIssue :=
  match f.property? with
  | none => some ⟨b.selector, f.line, String.ofList f.text⟩
  | some _ => none

def isCustom (property : String) : Bool := ['-', '-'].isPrefixOf property.toList

/-- The remark on a property that is neither known nor custom. -/
def Block.unknown? (b : Block) (f : Fragment) : Option PropertyIssue :=
  match f.property? with
  | none => none
  | some property =>
    if isCustom property || knownProperties.contains property then none
    else some ⟨b.selector, f.line, property⟩

def Block.repeatedFrom (b : Block) (seen : List String) : List Fragment → List PropertyIssue
  | [] => []
  | f :: rest =>
    match f.property? with
    | none => b.repeatedFrom seen rest
    | some property =>
      if seen.contains property then
        ⟨b.selector, f.line, property⟩ :: b.repeatedFrom seen rest
      else b.repeatedFrom (property :: seen) rest

def Block.repeated (b : Block) : List PropertyIssue := b.repeatedFrom [] b.fragments

/-! ## Selectors -/

/-- Whether an HTML document uses a class or an id. -/
structure Usage where
  classes : List (List Char)
  ids : List (List Char)

def valuesOf (name : String) (html : List Char) : List (List Char) :=
  ((attributeValue name).findAll html).map (·.groupText 1)

/-- The classes and ids of an HTML document. -/
def usageOf (html : List Char) : Usage :=
  { classes := (valuesOf "class" html).flatMap (splitWhere isBlank)
    ids := valuesOf "id" html }

/-- Whether a selector begins with a class or an id that is not used. -/
def Usage.lacks (u : Usage) (selector : String) : Bool :=
  match selectorName.find? selector.toList with
  | none => false
  | some m =>
    let name := m.groupText 1
    if selector.toList.head? == some '.' then !u.classes.contains name else !u.ids.contains name

/-- Selectors that a document lacks, in the order first seen. -/
def unusedSelectors (selectors : List String) (html : String) : List String :=
  let usage := usageOf html.toList
  (NameSet.ofList (selectors.filter usage.lacks)).toList

def selectorLines (blocks : List Block) : SortedMap String (List Nat) :=
  blocks.foldl (fun m b => m.alter b.selector (fun lines => lines.getD [] ++ [b.line])) ∅

/-! ## All findings -/

def findingsOf (blocks : List Block) (html : Option String) : CssFindings :=
  let selectors := blocks.map (·.selector)
  { selectors
    selectorLines := selectorLines blocks
    duplicatedSelectors :=
      (NameSet.ofList (selectors.filter (fun s => 1 < selectors.count s))).toList
    invalidSelectors :=
      (NameSet.ofList (selectors.filter (fun s => !simpleSelector.occurs s.toList))).toList
    invalidProperties := blocks.flatMap (fun b => b.fragments.filterMap b.invalid?)
    repeatedProperties := blocks.flatMap Block.repeated
    unknownProperties := blocks.flatMap (fun b => b.fragments.filterMap b.unknown?)
    unusedSelectors := (html.map (unusedSelectors selectors)).getD [] }

def analyzeWith (source : String) (html : Option String) : CssFindings :=
  findingsOf (blocks (blankComments (unifyEndings source.toList))) html

def analyze (source : String) : CssFindings :=
  analyzeWith source none

end CodeSurvey.Css
