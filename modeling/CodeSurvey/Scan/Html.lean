/-
The findings of an HTML source.

Open tags are kept on one stack.  On each line the opening tags are pushed first; then each closing
tag removes the latest open tag of its name, wherever on the stack that stands.

The opening and the closing tags of a line are found by two patterns, each in a search of its own.
So on one line an opening tag counts as in front of every closing tag, and a name with a hyphen in
it is two different names to the two patterns.
-/
import CodeSurvey.Pattern.Search
import CodeSurvey.Text.Lines
import CodeSurvey.Findings.Markup
import CodeSurvey.NameSet

namespace CodeSurvey.Html

open Text Pattern

/-- Elements that never take a closing tag. -/
def voidElements : List String :=
  ["area", "base", "br", "col", "embed", "hr", "img", "input", "link", "meta", "param", "source",
    "track", "wbr"]

def tagName : Pattern := some1 Char.isAlphanum

/-- An opening tag; group 1 is its name, group 2 what follows the name. -/
def openPattern : Pattern :=
  char '<' ++ group 1 tagName ++ group 2 (many (· != '>')) ++ char '>'

/-- A closing tag; group 1 is its name. -/
def closePattern : Pattern :=
  literal "</" ++ group 1 tagName ++ blanks ++ char '>'

/-- A tag that the line ends within. -/
def incompletePattern : Pattern :=
  char '<' ++ group 1 tagName ++ many (· != '>') ++ textEnd

def idPattern : Pattern :=
  literal "id=\"" ++ group 1 (some1 (· != '"')) ++ char '"'

/-- A whole word in either case. -/
def attributePattern (name : String) : Pattern :=
  wordEdge ++ literalAnyCase name ++ wordEdge

/-- The name of a tag match, in lower case. -/
def nameOf (m : Match) : String := String.ofList (lowerAscii (m.groupText 1))

/-- The text of a tag match with its line. -/
def snippetOf (number : Nat) (m : Match) : TagSnippet := ⟨String.ofList m.text, number⟩

/-- Whether a tag closes itself. -/
def isSelfClosing (m : Match) : Bool :=
  ['>', '/'].isPrefixOf m.text.reverse || (trim (m.groupText 2)).getLast? == some '/'

/-- Whether an opening tag is left open. -/
def isPushed (m : Match) : Bool :=
  !voidElements.contains (nameOf m) && !isSelfClosing m

def openedTags (number : Nat) (line : Line) : List TagLocation :=
  ((openPattern.findAll line).filter isPushed).map (fun m => ⟨nameOf m, number⟩)

def closedTags (number : Nat) (line : Line) : List TagLocation :=
  (closePattern.findAll line).map (fun m => ⟨nameOf m, number⟩)

/-- The opening tags of an element that lack an attribute. -/
def tagsWithout (tag required : String) (number : Nat) (line : Line) : List TagSnippet :=
  ((openPattern.findAll line).filter
    (fun m => nameOf m == tag && !(attributePattern required).occurs m.text)).map
    (snippetOf number)

def incomplete (number : Nat) (line : Line) : List TagSnippet :=
  if incompletePattern.occurs (trim line) then [⟨String.ofList (trim line), number⟩] else []

/-- The open tags, the latest first, and the closing tags that found none, in order. -/
structure TagState where
  stack : List TagLocation
  orphans : List TagLocation
deriving DecidableEq, Repr

def TagState.push (s : TagState) (tag : TagLocation) : TagState :=
  { s with stack := tag :: s.stack }

/-- Remove the latest open tag of the name, or note an orphan. -/
def TagState.close (s : TagState) (tag : TagLocation) : TagState :=
  if s.stack.any (·.tag == tag.tag) then
    { s with stack := s.stack.eraseP (·.tag == tag.tag) }
  else { s with orphans := s.orphans ++ [tag] }

def TagState.readLine (s : TagState) (number : Nat) (line : Line) : TagState :=
  (closedTags number line).foldl close ((openedTags number line).foldl push s)

def TagState.readLines (s : TagState) (number : Nat) : List Line → TagState
  | [] => s
  | line :: rest => (s.readLine number line).readLines (number + 1) rest

/-- Ids that occur more than once, in the order first seen. -/
def duplicatedIds (text : List Char) : List String :=
  let ids := (idPattern.findAll text).map (fun m => String.ofList (m.groupText 1))
  (NameSet.ofList ids).toList.filter (fun id => 1 < ids.count id)

def analyzeText (text : List Char) : HtmlFindings :=
  let lines := splitLines text
  let tags := TagState.readLines ⟨[], []⟩ 1 lines
  { unclosedTags := tags.stack.reverse
    missingCloseTags := tags.orphans
    incompleteTags := eachLine incomplete 1 lines
    duplicatedIds := duplicatedIds text
    imgsWithoutAlt := eachLine (tagsWithout "img" "alt") 1 lines
    linksWithoutHref := eachLine (tagsWithout "a" "href") 1 lines }

def analyze (source : String) : HtmlFindings :=
  analyzeText (unifyEndings source.toList)

end CodeSurvey.Html
