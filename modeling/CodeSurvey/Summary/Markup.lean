/-
The sections of HTML and CSS sources.

These languages have warnings only, so all is well when there is no section at all.  An item says
where it is from: a tag or a snippet by its line, a property by its line and its selector.  Ids and
selectors stand alone, since what is wrong with one of those is that it stands in several places or
in none.
-/
import CodeSurvey.Findings.Markup
import CodeSurvey.Summary.Section

namespace CodeSurvey

/-- A piece of the source with its line. -/
def TagSnippet.item (s : TagSnippet) : String := Item.namedAtLine s.snippet s.line

def TagLocation.openItem (t : TagLocation) : String :=
  "<" ++ t.tag ++ "> at line " ++ toString t.line

def TagLocation.closeItem (t : TagLocation) : String :=
  "</" ++ t.tag ++ "> at line " ++ toString t.line

/-- A property with its selector and line. -/
def PropertyIssue.item (i : PropertyIssue) : String :=
  i.property ++ " (selector " ++ i.selector ++ ", line " ++ toString i.line ++ ")"

namespace HtmlFindings

/-- Every section an HTML source may have, in order, with or without items. -/
def candidates (r : HtmlFindings) : List Section :=
  [.warning "html-unclosed" "Unclosed tags" (r.unclosedTags.map TagLocation.openItem),
    .warning "html-missing-close" "Closing tags without an opening tag"
      (r.missingCloseTags.map TagLocation.closeItem),
    .warning "html-incomplete" "Incomplete tags" (r.incompleteTags.map TagSnippet.item),
    .warning "html-duplicated-ids" "Duplicated ids" r.duplicatedIds,
    Section.withHint
      (.warning "html-img-alt" "Images without alt attribute"
        (r.imgsWithoutAlt.map TagSnippet.item))
      "Add alt text to images to improve accessibility.",
    .warning "html-links-href" "Links without href" (r.linksWithoutHref.map TagSnippet.item)]

/-- Said when there is no section. -/
def success : Section :=
  .success "html-success" "No problems found" "The analyzed HTML is consistent."

/-- The sections that have items; without any, all is well. -/
def sections (r : HtmlFindings) : List Section :=
  let found := r.candidates.filter Section.hasItems
  if found.isEmpty then [success] else found

end HtmlFindings

namespace CssFindings

/-- Every section a CSS source may have, in order, with or without items. -/
def candidates (r : CssFindings) : List Section :=
  [.warning "css-duplicated-selectors" "Duplicated selectors" r.duplicatedSelectors,
    .warning "css-invalid-selectors" "Invalid selectors" r.invalidSelectors,
    .warning "css-invalid-properties" "Malformed declarations"
      (r.invalidProperties.map PropertyIssue.item),
    .warning "css-repeated-properties" "Repeated properties"
      (r.repeatedProperties.map PropertyIssue.item),
    .warning "css-unknown-properties" "Unknown properties"
      (r.unknownProperties.map PropertyIssue.item),
    .warning "css-unused-selectors" "Unused selectors" r.unusedSelectors]

/-- Said when there is no section. -/
def success : Section :=
  .success "css-success" "No problems found" "The analyzed CSS is consistent."

/-- The sections that have items; without any, all is well. -/
def sections (r : CssFindings) : List Section :=
  let found := r.candidates.filter Section.hasItems
  if found.isEmpty then [success] else found

end CssFindings

end CodeSurvey
