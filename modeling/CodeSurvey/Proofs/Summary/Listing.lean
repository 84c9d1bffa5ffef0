/-
# Where a summary lists what was found

Every list of findings that is reported has a section of its own, which writes each finding as one
item.  The table of these lists (`Findings.listings`) is set beside the sections that a summary may
have (`Listing.Covers`); since the ids of those differ, a section can be looked up by its id, and
what it has is what its list holds (`Listing.Covers.shownIn`).

The problems of a lint run are two such lists, one for each severity that counts.  They touch no
other section, apart from the one that says all is well.
-/
import Mathlib.Data.List.Nodup
import CodeSurvey.Proofs.Summary.Shape

namespace CodeSurvey

theorem Section.items_ne_nil_of_hasItems {x : Section} (h : x.hasItems = true) : x.items ≠ [] := by
  intro hnil
  rw [hasItems, hnil] at h
  cases h

theorem Section.hasItems_of_items_ne_nil {x : Section} (h : x.items ≠ []) : x.hasItems = true := by
  rw [hasItems, Bool.not_eq_true', List.isEmpty_eq_false_iff]
  exact h

/-! ## Listings -/

/-- A list of findings with the id of the section for it, and how one finding is written. -/
structure Listing where
  id : String
  {Finding : Type}
  findings : List Finding
  write : Finding → String

namespace Listing

/-- Names and remarks that are items as they are. -/
def plain (id : String) (texts : List String) : Listing := ⟨id, texts, fun text => text⟩

def items (l : Listing) : List String := l.findings.map l.write

theorem items_ne_nil_iff (l : Listing) : l.items ≠ [] ↔ l.findings ≠ [] := by
  rw [items, Ne, List.map_eq_nil_iff]

/-- Sections and listings that go together, one by one. -/
def Covers (listings : List Listing) (candidates : List Section) : Prop :=
  listings.map (fun l => (l.id, l.items)) = candidates.map (fun x => (x.id, x.items))

theorem Covers.append {front back : List Listing} {sections others : List Section}
    (h : Covers front sections) (h' : Covers back others) :
    Covers (front ++ back) (sections ++ others) := by
  rw [Covers, List.map_append, List.map_append, h, h']

theorem Covers.exists_candidate {listings : List Listing} {candidates : List Section}
    (h : Covers listings candidates) {l : Listing} (hl : l ∈ listings) :
    ∃ x ∈ candidates, x.id = l.id ∧ x.items = l.items := by
  have hpair : (l.id, l.items) ∈ candidates.map (fun x => (x.id, x.items)) := by
    rw [← h]
    exact List.mem_map_of_mem hl
  obtain ⟨x, hx, heq⟩ := List.mem_map.1 hpair
  exact ⟨x, hx, (Prod.mk.inj heq).1, (Prod.mk.inj heq).2⟩

/-- How sections show a list of findings. -/
structure ShownIn (l : Listing) (sections : List Section) : Prop where
  /-- There is a section for it exactly if there is something to list. -/
  present_iff : (∃ x ∈ sections, x.id = l.id) ↔ l.findings ≠ []
  /-- It has one item for each finding, in order. -/
  items_eq : ∀ x ∈ sections, x.id = l.id → x.items = l.findings.map l.write

/-- Where the candidates that have items are shown, and nothing else under their ids, every list
of findings is shown. -/
theorem Covers.shownIn {listings : List Listing} {candidates sections : List Section}
    (h : Covers listings candidates) (hnodup : (candidates.map Section.id).Nodup)
    (hkept : ∀ x ∈ candidates, x.hasItems = true → x ∈ sections)
    (hfound : ∀ x ∈ sections, x ∈ candidates.filter Section.hasItems ∨
      x.id ∉ candidates.map Section.id) :
    ∀ l ∈ listings, l.ShownIn sections := by
  intro l hl
  obtain ⟨c, hc, hid, hitems⟩ := h.exists_candidate hl
  -- what stands under the id of the list is its candidate, and has items
  have honly : ∀ x ∈ sections, x.id = l.id → x = c ∧ x.hasItems = true := by
    intro x hx hxid
    rcases hfound x hx with hfilter | hother
    · obtain ⟨hxc, hxitems⟩ := List.mem_filter.1 hfilter
      exact ⟨List.inj_on_of_nodup_map hnodup hxc hc (hxid.trans hid.symm), hxitems⟩
    · rw [hxid, ← hid] at hother
      exact absurd (List.mem_map_of_mem hc) hother
  constructor
  · rw [← l.items_ne_nil_iff, ← hitems]
    constructor
    · rintro ⟨x, hx, hxid⟩
      obtain ⟨rfl, hxitems⟩ := honly x hx hxid
      exact Section.items_ne_nil_of_hasItems hxitems
    · intro hne
      exact ⟨c, hkept c hc (Section.hasItems_of_items_ne_nil hne), hid⟩
  · intro x hx hxid
    rw [(honly x hx hxid).1, hitems]
    rfl

end Listing

/-! ## What the languages list -/

/-- The variables that functions write and nothing reads, each with its function. -/
def PythonFindings.unreadVariables (r : PythonFindings) : List (String × String) :=
  r.unusedWrites.flatMap (fun w => w.names.map (fun v => (w.function, v)))

/-- What is reported of a Python source. -/
def PythonFindings.listings (r : PythonFindings) : List Listing :=
  [.plain "python-unused-functions" r.unusedFunctions,
    .plain "python-unused-vars" r.unusedVars,
    ⟨"python-unused-imports", r.unusedImports, fun i => Item.namedAtLine i.name i.line⟩,
    ⟨"python-docstrings", r.docstringIssues, issueItem⟩,
    ⟨"python-dead-code", r.deadCode, issueItem⟩,
    ⟨"python-duplicate-functions", r.duplicateFunctions, (", ".intercalate ·)⟩,
    ⟨"python-unused-writes", r.unreadVariables,
      fun written => "Function '" ++ written.1 ++ "': " ++ written.2⟩,
    .plain "python-uninitialized" r.uninitializedVars,
    ⟨"python-style", r.styleIssues, issueItem⟩,
    ⟨"python-common-errors", r.commonErrors, issueItem⟩,
    ⟨"python-refactor", r.refactorSuggestions, issueItem⟩,
    ⟨"python-third-party", r.thirdPartyCode, issueItem⟩,
    ⟨"python-performance", r.performanceIssues, issueItem⟩,
    ⟨"python-prints", r.printStatements, fun p => Item.atLine p.line p.code⟩]

/-- The problems of a lint run that are reported, by their severity. -/
def JavaScriptFindings.lintListings (problems : List LintProblem) : List Listing :=
  [⟨"js-eslint-errors", problems.filter (fun p => p.severity = 2), lintItem⟩,
    ⟨"js-eslint-warnings", problems.filter (fun p => p.severity = 1), lintItem⟩]

/-- What is reported of a JavaScript source by itself. -/
def JavaScriptFindings.ownListings (r : JavaScriptFindings) : List Listing :=
  [.plain "js-syntax" r.syntaxErrors,
    ⟨"js-unused-functions", r.unusedFunctions, locationItem⟩,
    ⟨"js-unused-vars", r.unusedVariables, locationItem⟩,
    ⟨"js-var", r.varUsage, Item.lineOnly⟩,
    ⟨"js-eval", r.evalUsage, Item.lineOnly⟩,
    ⟨"js-document-write", r.documentWriteUsage, Item.lineOnly⟩,
    ⟨"js-todo", r.todoComments, fun t => Item.namedAtLine t.comment t.line⟩,
    ⟨"js-long-lines", r.longLines, Item.lineOnly⟩,
    ⟨"js-magic-numbers", r.magicNumbers, fun n => Item.namedAtLine n.value n.line⟩,
    ⟨"js-semicolon", r.semicolonMissing, Item.lineOnly⟩,
    ⟨"js-double-equals", r.doubleEquals, Item.lineOnly⟩,
    ⟨"js-console", r.consoleLogUsage, Item.lineOnly⟩,
    ⟨"js-arrow-functions", r.arrowFunctions, locationItem⟩,
    ⟨"js-anonymous-functions", r.anonymousFunctions, locationItem⟩]

/-- What is reported of a JavaScript source, the problems of a lint run included. -/
def JavaScriptFindings.listings (r : JavaScriptFindings) : List Listing :=
  r.ownListings ++ (r.lintProblems.map lintListings).getD []

/-- What is reported of an HTML source. -/
def HtmlFindings.listings (r : HtmlFindings) : List Listing :=
  [⟨"html-unclosed", r.unclosedTags, TagLocation.openItem⟩,
    ⟨"html-missing-close", r.missingCloseTags, TagLocation.closeItem⟩,
    ⟨"html-incomplete", r.incompleteTags, TagSnippet.item⟩,
    .plain "html-duplicated-ids" r.duplicatedIds,
    ⟨"html-img-alt", r.imgsWithoutAlt, TagSnippet.item⟩,
    ⟨"html-links-href", r.linksWithoutHref, TagSnippet.item⟩]

/-- What is reported of a CSS source. -/
def CssFindings.listings (r : CssFindings) : List Listing :=
  [.plain "css-duplicated-selectors" r.duplicatedSelectors,
    .plain "css-invalid-selectors" r.invalidSelectors,
    ⟨"css-invalid-properties", r.invalidProperties, PropertyIssue.item⟩,
    ⟨"css-repeated-properties", r.repeatedProperties, PropertyIssue.item⟩,
    ⟨"css-unknown-properties", r.unknownProperties, PropertyIssue.item⟩,
    .plain "css-unused-selectors" r.unusedSelectors]

/-- The lists of findings that have a section, in the order of the sections.  The statistics of an
overview are no list of findings. -/
def Findings.listings : Findings → List Listing
  | .python r => r.listings
  | .javaScript r => r.listings
  | .html r => r.listings
  | .css r => r.listings
  | .overview r => [.plain "generic-info" r.info]

theorem PythonFindings.map_unreadVariables (r : PythonFindings) :
    r.unreadVariables.map (fun written => "Function '" ++ written.1 ++ "': " ++ written.2) =
      r.unusedWrites.flatMap unusedWriteItems := by
  rw [unreadVariables, List.map_flatMap]
  simp only [List.map_map]
  rfl

theorem PythonFindings.covers (r : PythonFindings) : Listing.Covers r.listings r.candidates := by
  simp [Listing.Covers, listings, candidates, Listing.items, Listing.plain, map_unreadVariables,
    Section.withHint, Section.warning, Section.info, Section.plain]

theorem JavaScriptFindings.ownCovers (r : JavaScriptFindings) :
    Listing.Covers r.ownListings r.ownCandidates := by
  simp [Listing.Covers, ownListings, ownCandidates, Listing.items, Listing.plain,
    Section.withHint, Section.warning, Section.info, Section.plain]

theorem JavaScriptFindings.lintCovers (problems : List LintProblem) :
    Listing.Covers (lintListings problems) (lintCandidates problems) := by
  rfl

theorem JavaScriptFindings.covers (r : JavaScriptFindings) :
    Listing.Covers r.listings r.candidates := by
  refine Listing.Covers.append r.ownCovers ?_
  cases r.lintProblems with
  | none => rfl
  | some problems => exact lintCovers problems

theorem HtmlFindings.covers (r : HtmlFindings) : Listing.Covers r.listings r.candidates := by
  simp [Listing.Covers, listings, candidates, Listing.items, Listing.plain, Section.withHint,
    Section.warning, Section.plain]

theorem CssFindings.covers (r : CssFindings) : Listing.Covers r.listings r.candidates := by
  simp [Listing.Covers, listings, candidates, Listing.items, Listing.plain, Section.warning,
    Section.plain]

/-! ## Sections that end with a success -/

namespace Section

theorem mem_closedBy {success x : Section} {found : List Section} :
    x ∈ closedBy success found ↔
      x ∈ found ∨ x = success ∧ ∀ y ∈ found, y.isWarning = false := by
  have hnone : found.any isWarning = false ↔ ∀ y ∈ found, y.isWarning = false := by
    simp only [List.any_eq_false, Bool.not_eq_true]
  unfold closedBy
  split
  · rename_i hany
    have hsome : ¬∀ y ∈ found, y.isWarning = false := by
      rw [← hnone, hany]
      exact Bool.false_ne_true ∘ Eq.symm
    simp only [hsome, and_false, or_false]
  · rename_i hany
    rw [Bool.not_eq_true, hnone] at hany
    rw [List.mem_append, List.mem_singleton, and_iff_left hany]

theorem filter_closedBy {success : Section} {keep : Section → Bool} (hout : keep success = false)
    (found : List Section) : (closedBy success found).filter keep = found.filter keep := by
  unfold closedBy
  split
  · rfl
  · rw [List.filter_append, List.filter_cons_of_neg (by rw [hout]; exact Bool.false_ne_true),
      List.filter_nil, List.append_nil]

theorem success_mem_closedBy_iff {success : Section} {found : List Section}
    (hid : ∀ x ∈ found, x.id ≠ success.id) (hseverity : success.severity = .success) :
    (∃ x ∈ closedBy success found, x.id = success.id) ↔
      ∀ x ∈ closedBy success found, x.severity ≠ .warning := by
  constructor
  · rintro ⟨x, hx, hxid⟩ y hy
    rcases mem_closedBy.1 hx with hfound | ⟨-, hnone⟩
    · exact absurd hxid (hid x hfound)
    · rcases mem_closedBy.1 hy with hfound | ⟨rfl, -⟩
      · exact ne_of_beq_false (hnone y hfound)
      · rw [hseverity]
        decide
  · intro hnone
    refine ⟨success, mem_closedBy.2 (.inr ⟨rfl, fun y hy => ?_⟩), rfl⟩
    exact beq_eq_false_iff_ne.2 (hnone y (mem_closedBy.2 (.inl hy)))

end Section

theorem Listing.Covers.shownIn_closedBy {listings : List Listing} {candidates : List Section}
    {success : Section} {order : List String} (h : Covers listings candidates)
    (hids : (candidates.map Section.id ++ [success.id]).Sublist order) (horder : order.Nodup) :
    ∀ l ∈ listings,
      l.ShownIn (Section.closedBy success (candidates.filter Section.hasItems)) := by
  have hnodup := List.nodup_append.1 (horder.sublist hids)
  refine h.shownIn hnodup.1 (fun x hx hitems => ?_) (fun x hx => ?_)
  · exact Section.mem_closedBy.2 (.inl (List.mem_filter.2 ⟨hx, hitems⟩))
  · refine (Section.mem_closedBy.1 hx).imp (fun hfound => hfound) ?_
    rintro ⟨rfl, -⟩ hmem
    exact hnodup.2.2 _ hmem _ (List.mem_singleton_self _) rfl

theorem PythonFindings.shownIn (r : PythonFindings) : ∀ l ∈ r.listings, l.ShownIn r.sections :=
  r.covers.shownIn_closedBy (List.Sublist.refl _) (Findings.nodup_sectionIds (.python r))

theorem JavaScriptFindings.shownIn (r : JavaScriptFindings) :
    ∀ l ∈ r.listings, l.ShownIn r.sections :=
  r.covers.shownIn_closedBy r.ids_sublist (Findings.nodup_sectionIds (.javaScript r))

theorem HtmlFindings.sections_eq (r : HtmlFindings) :
    r.sections = Section.closedBy success (r.candidates.filter Section.hasItems) :=
  Section.closedBy_of_warnings success
    (fun x hx => r.isWarning_of_mem x (List.mem_filter.1 hx).1)

theorem HtmlFindings.shownIn (r : HtmlFindings) : ∀ l ∈ r.listings, l.ShownIn r.sections := by
  rw [sections_eq]
  exact r.covers.shownIn_closedBy (List.Sublist.refl _) (Findings.nodup_sectionIds (.html r))

theorem CssFindings.sections_eq (r : CssFindings) :
    r.sections = Section.closedBy success (r.candidates.filter Section.hasItems) :=
  Section.closedBy_of_warnings success
    (fun x hx => r.isWarning_of_mem x (List.mem_filter.1 hx).1)

theorem CssFindings.shownIn (r : CssFindings) : ∀ l ∈ r.listings, l.ShownIn r.sections := by
  rw [sections_eq]
  exact r.covers.shownIn_closedBy (List.Sublist.refl _) (Findings.nodup_sectionIds (.css r))

theorem Overview.shownIn (r : Overview) :
    ∀ l ∈ [Listing.plain "generic-info" r.info], l.ShownIn r.sections := by
  have hcovers : Listing.Covers [Listing.plain "generic-info" r.info] [r.notes] := by
    simp [Listing.Covers, Listing.items, Listing.plain, notes, Section.info, Section.plain]
  refine hcovers.shownIn (List.nodup_singleton _) (fun x hx hitems => ?_) (fun x hx => ?_)
  · exact List.mem_append_left _ (List.mem_cons_of_mem _ (List.mem_filter.2 ⟨hx, hitems⟩))
  · rcases List.mem_append.1 hx with hx | hx
    · rcases List.mem_cons.1 hx with rfl | hx
      · exact .inr (of_decide_eq_true rfl)
      · exact .inl hx
    · rw [List.mem_singleton.1 hx]
      exact .inr (of_decide_eq_true rfl)

/-! ## Lint runs -/

namespace JavaScriptFindings

/-- Whether a section has nothing to do with a lint run. -/
def isApartFromLint (x : Section) : Bool :=
  x.id ∉ ["js-eslint-errors", "js-eslint-warnings", "js-success"]

variable (r : JavaScriptFindings) (problems : List LintProblem)

theorem filter_sections_withLintProblems :
    (r.withLintProblems problems).sections.filter isApartFromLint =
      { r with lintProblems := none }.sections.filter isApartFromLint := by
  have hlint : ((lintCandidates problems).filter Section.hasItems).filter isApartFromLint = [] := by
    refine List.filter_eq_nil_iff.2 (fun x hx => ?_)
    have hx := (List.mem_filter.1 hx).1
    simp only [lintCandidates, List.mem_cons, List.not_mem_nil, or_false] at hx
    rcases hx with rfl | rfl <;> exact of_decide_eq_true rfl
  have hwith : (r.withLintProblems problems).sections =
      Section.closedBy success
        (r.ownCandidates.filter Section.hasItems ++
          (lintCandidates problems).filter Section.hasItems) := by
    rw [← List.filter_append]
    rfl
  have hwithout : { r with lintProblems := none }.sections =
      Section.closedBy success (r.ownCandidates.filter Section.hasItems) := by
    rw [← List.append_nil r.ownCandidates]
    rfl
  rw [hwith, hwithout, Section.filter_closedBy rfl, Section.filter_closedBy rfl,
    List.filter_append, hlint, List.append_nil]

theorem sections_withLintProblems_filter :
    (r.withLintProblems
        (problems.filter (fun p => p.severity = 1 ∨ p.severity = 2))).sections =
      (r.withLintProblems problems).sections := by
  have herrors : (problems.filter (fun p => p.severity = 1 ∨ p.severity = 2)).filter (·.isError) =
      problems.filter (·.isError) := by
    rw [List.filter_filter]
    refine List.filter_congr (fun p _ => ?_)
    by_cases h : p.severity = 2 <;>
      simp [LintProblem.isError, LintProblem.errorSeverity, h]
  have hwarnings : (problems.filter (fun p => p.severity = 1 ∨ p.severity = 2)).filter
      (·.isWarning) = problems.filter (·.isWarning) := by
    rw [List.filter_filter]
    refine List.filter_congr (fun p _ => ?_)
    by_cases h : p.severity = 1 <;>
      simp [LintProblem.isWarning, LintProblem.warningSeverity, h]
  have hcandidates : lintCandidates
      (problems.filter (fun p => p.severity = 1 ∨ p.severity = 2)) = lintCandidates problems := by
    rw [lintCandidates, herrors, hwarnings, lintCandidates]
  simp only [sections, candidates, withLintProblems, Option.map_some, Option.getD_some, hcandidates]
  rfl

theorem success_iff : (∃ x ∈ r.sections, x.id = "js-success") ↔
    ∀ x ∈ r.sections, x.severity ≠ .warning := by
  refine @Section.success_mem_closedBy_iff success _ (fun x hx hid => ?_) rfl
  have hnodup := (Findings.nodup_sectionIds (.javaScript r)).sublist r.ids_sublist
  refine (List.nodup_append.1 hnodup).2.2 x.id ?_ _ (List.mem_singleton_self _) hid
  exact List.mem_map_of_mem (List.mem_filter.1 hx).1

end JavaScriptFindings

/-! ## The summary -/

/-- **No finding is lost or repeated.**  The sections of a summary have distinct ids, and every list
of findings is shown in the section of its own: there is one exactly if there is something to list,
and it has one item for each finding, in order.  A lint run is shown in two sections, its errors in
one and its warnings in the other; problems of other severities change nothing, the sections apart
from these two and the success are those of the source without a lint run, and the success is there
exactly if no section warns. -/
theorem findings_listed_once (f : Findings) :
    ((summarize f).sections.map Section.id).Nodup ∧
    (∀ l ∈ f.listings, l.ShownIn (summarize f).sections) ∧
    ∀ (r : JavaScriptFindings) (problems : List LintProblem),
      let sections := (summarize (.javaScript (r.withLintProblems problems))).sections
      let counted := problems.filter (fun p => p.severity = 1 ∨ p.severity = 2)
      let without := (summarize (.javaScript { r with lintProblems := none })).sections
      (∀ l ∈ JavaScriptFindings.lintListings problems, l.ShownIn sections) ∧
      (summarize (.javaScript (r.withLintProblems counted))).sections = sections ∧
      sections.filter JavaScriptFindings.isApartFromLint =
        without.filter JavaScriptFindings.isApartFromLint ∧
      ((∃ x ∈ sections, x.id = "js-success") ↔ ∀ x ∈ sections, x.severity ≠ .warning) := by
  refine ⟨f.nodup_sectionIds.sublist f.shape.1.ordered, ?_, fun r problems => ⟨?_, ?_, ?_, ?_⟩⟩
  · cases f with
    | python r => exact r.shownIn
    | javaScript r => exact r.shownIn
    | html r => exact r.shownIn
    | css r => exact r.shownIn
    | overview r => exact r.shownIn
  · exact fun l hl => (r.withLintProblems problems).shownIn l (List.mem_append_right _ hl)
  · exact r.sections_withLintProblems_filter problems
  · exact r.filter_sections_withLintProblems problems
  · exact (r.withLintProblems problems).success_iff

/-- Two functions with writes that nothing reads, the second without a variable. -/
def twoWriters : PythonFindings :=
  { (default : PythonFindings) with unusedWrites := [⟨"f", ["a", "b"]⟩, ⟨"g", []⟩] }

/-- Each variable has an item. -/
theorem twoWriters_listed :
    ∃ x ∈ (summarize (.python twoWriters)).sections, x.id = "python-unused-writes" ∧
      x.items = ["Function 'f': a", "Function 'f': b"] := by
  obtain ⟨-, hshown, -⟩ := findings_listed_once (.python twoWriters)
  have hwrites := hshown _ (List.mem_of_getElem? (i := 6) rfl)
  obtain ⟨x, hx, hid⟩ := hwrites.present_iff.2 (of_decide_eq_true rfl)
  exact ⟨x, hx, hid, hwrites.items_eq x hx hid⟩

/-- A function whose list of unread variables is empty, as no source gives it, is in the list of
unused writes and has no item, so there is no section. -/
theorem variableless_writer_unlisted :
    let r := { (default : PythonFindings) with unusedWrites := [⟨"f", []⟩] }
    r.unusedWrites ≠ [] ∧
      ¬∃ x ∈ (summarize (.python r)).sections, x.id = "python-unused-writes" := by
  decide

end CodeSurvey
