/-
HTML and CSS findings as JSON records.

The lines of selectors are an object whose keys are the selectors, in their own order and not in
that of the source.  Since the map is sorted and has each key once, an object of this kind is read
back to the map it was written from; an object with a key twice is read to the map that keeps the
value given last.
-/
import CodeSurvey.Findings.Markup
import CodeSurvey.Json.Decode

namespace CodeSurvey

open Json (required record? text? nat? texts? naturals? list?)

def TagLocation.toJson (t : TagLocation) : Json :=
  .object [("tag", .string t.tag), ("line", .nat t.line)]

def TagLocation.ofJson? : Json → Option TagLocation :=
  record? ["tag", "line"] (do
    let tag ← required text?
    let line ← required nat?
    return { tag, line })

/-- A piece of the source as a record. -/
def TagSnippet.toJson (s : TagSnippet) : Json :=
  .object [("snippet", .string s.snippet), ("line", .nat s.line)]

/-- A piece of the source from its record. -/
def TagSnippet.ofJson? : Json → Option TagSnippet :=
  record? ["snippet", "line"] (do
    let snippet ← required text?
    let line ← required nat?
    return { snippet, line })

namespace HtmlFindings

/-- The fields of the findings. -/
def keys : List String :=
  ["unclosedTags", "missingCloseTags", "incompleteTags", "duplicatedIds", "imgsWithoutAlt",
    "linksWithoutHref"]

/-- The findings as a record. -/
def toJson (r : HtmlFindings) : Json :=
  .object (keys.zip
    [.array (r.unclosedTags.map TagLocation.toJson),
      .array (r.missingCloseTags.map TagLocation.toJson),
      .array (r.incompleteTags.map TagSnippet.toJson), .strings r.duplicatedIds,
      .array (r.imgsWithoutAlt.map TagSnippet.toJson),
      .array (r.linksWithoutHref.map TagSnippet.toJson)])

/-- The findings from their record. -/
def ofJson? : Json → Option HtmlFindings :=
  record? keys (do
    let unclosedTags ← required (list? TagLocation.ofJson?)
    let missingCloseTags ← required (list? TagLocation.ofJson?)
    let incompleteTags ← required (list? TagSnippet.ofJson?)
    let duplicatedIds ← required texts?
    let imgsWithoutAlt ← required (list? TagSnippet.ofJson?)
    let linksWithoutHref ← required (list? TagSnippet.ofJson?)
    return { unclosedTags, missingCloseTags, incompleteTags, duplicatedIds, imgsWithoutAlt,
             linksWithoutHref })

end HtmlFindings

/-- A remark on a property as a record. -/
def PropertyIssue.toJson (i : PropertyIssue) : Json :=
  .object [("selector", .string i.selector), ("line", .nat i.line),
    ("property", .string i.property)]

/-- A remark on a property from its record. -/
def PropertyIssue.ofJson? : Json → Option PropertyIssue :=
  record? ["selector", "line", "property"] (do
    let selector ← required text?
    let line ← required nat?
    let property ← required text?
    return { selector, line, property })

namespace CssFindings

def issues (list : List PropertyIssue) : Json := .array (list.map PropertyIssue.toJson)

def issues? : Json → Option (List PropertyIssue) := list? PropertyIssue.ofJson?

/-- Lines by selector as an object, in the order of the selectors. -/
def linesToJson (m : SortedMap String (List Nat)) : Json :=
  .object (m.entries.map (fun e => (e.1, .nats e.2)))

/-- Lines by selector from an object. -/
def linesOfJson? (value : Json) : Option (SortedMap String (List Nat)) := do
  let members ← value.members?
  let entries ← members.mapM (fun m => (naturals? m.2).map (m.1, ·))
  return SortedMap.ofEntries entries

/-- The fields of the findings. -/
def keys : List String :=
  ["selectors", "selectorLines", "duplicatedSelectors", "invalidSelectors", "invalidProperties",
    "repeatedProperties", "unknownProperties", "unusedSelectors"]

/-- The findings as a record. -/
def toJson (r : CssFindings) : Json :=
  .object (keys.zip
    [.strings r.selectors, linesToJson r.selectorLines, .strings r.duplicatedSelectors,
      .strings r.invalidSelectors, issues r.invalidProperties, issues r.repeatedProperties,
      issues r.unknownProperties, .strings r.unusedSelectors])

/-- The findings from their record. -/
def ofJson? : Json → Option CssFindings :=
  record? keys (do
    let selectors ← required texts?
    let selectorLines ← required linesOfJson?
    let duplicatedSelectors ← required texts?
    let invalidSelectors ← required texts?
    let invalidProperties ← required issues?
    let repeatedProperties ← required issues?
    let unknownProperties ← required issues?
    let unusedSelectors ← required texts?
    return { selectors, selectorLines, duplicatedSelectors, invalidSelectors, invalidProperties,
             repeatedProperties, unknownProperties, unusedSelectors })

end CssFindings

end CodeSurvey
