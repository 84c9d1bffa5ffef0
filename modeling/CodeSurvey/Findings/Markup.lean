/-
What HTML and CSS sources show.

In HTML nearly everything is tied to a tag and to the line on which it begins.  A tag that is open
or missing goes by its name; one that is incomplete, or lacks an attribute, is quoted as it stands,
for it may have no name worth telling.

In CSS nearly everything is tied to a selector.  The same selector may head several blocks, so the
lines are kept in a map from selectors to lists of lines; the list of selectors itself keeps the
repeats, one entry for each block, and its length is the number of blocks.
-/
import CodeSurvey.SortedMap

namespace CodeSurvey

/-- A tag name in lower case and the line it stands on. -/
structure TagLocation where
  tag : String
  line : Nat
deriving DecidableEq, Repr, Inhabited

/-- A piece of the source and the line it stands on. -/
structure TagSnippet where
  snippet : String
  line : Nat
deriving DecidableEq, Repr, Inhabited

/-- The findings of an HTML source. -/
structure HtmlFindings where
  /-- Tags that nothing closed. -/
  unclosedTags : List TagLocation
  /-- Closing tags that found nothing to close. -/
  missingCloseTags : List TagLocation
  incompleteTags : List TagSnippet
  /-- Ids given more than once, in the order first seen. -/
  duplicatedIds : List String
  imgsWithoutAlt : List TagSnippet
  linksWithoutHref : List TagSnippet
deriving DecidableEq, Repr, Inhabited

/-- A remark on one declaration of a block. -/
structure PropertyIssue where
  selector : String
  line : Nat
  property : String
deriving DecidableEq, Repr, Inhabited

/-- The findings of a CSS source. -/
structure CssFindings where
  /-- The selector of every block, repeats included. -/
  selectors : List String
  /-- The lines on which the blocks of each selector begin. -/
  selectorLines : SortedMap String (List Nat)
  duplicatedSelectors : List String
  invalidSelectors : List String
  /-- Declarations without a colon. -/
  invalidProperties : List PropertyIssue
  repeatedProperties : List PropertyIssue
  unknownProperties : List PropertyIssue
  /-- Selectors that an accompanying HTML document does not use. -/
  unusedSelectors : List String
deriving DecidableEq, Repr, Inhabited

end CodeSurvey
