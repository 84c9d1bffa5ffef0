/-
# The shape of a summary

A language names every section it may have, in one order, and a summary keeps those that have
items.  What is left to say is when all is well.  Python and JavaScript say so when no section is a
warning, HTML and CSS when there is no section at all; the latter have warnings only, so the two
rules are one (`closedBy_of_warnings`), and one account of the ending serves all four
(`closed_closedBy`).  An overview never warns and always says that it is done.
-/
import CodeSurvey.Summary

namespace CodeSurvey

/-! ## The order of the sections -/

def PythonFindings.sectionIds : List String :=
  ["python-unused-functions", "python-unused-vars", "python-unused-imports", "python-docstrings",
    "python-dead-code", "python-duplicate-functions", "python-unused-writes",
    "python-uninitialized", "python-style", "python-common-errors", "python-refactor",
    "python-third-party", "python-performance", "python-prints", "python-success"]

/-- The sections of a JavaScript source, by id; those of a lint run stand behind its own. -/
def JavaScriptFindings.sectionIds : List String :=
  ["js-syntax", "js-unused-functions", "js-unused-vars", "js-var", "js-eval", "js-document-write",
    "js-todo", "js-long-lines", "js-magic-numbers", "js-semicolon", "js-double-equals",
    "js-console", "js-arrow-functions", "js-anonymous-functions", "js-eslint-errors",
    "js-eslint-warnings", "js-success"]

def HtmlFindings.sectionIds : List String :=
  ["html-unclosed", "html-missing-close", "html-incomplete", "html-duplicated-ids",
    "html-img-alt", "html-links-href", "html-success"]

def CssFindings.sectionIds : List String :=
  ["css-duplicated-selectors", "css-invalid-selectors", "css-invalid-properties",
    "css-repeated-properties", "css-unknown-properties", "css-unused-selectors", "css-success"]

def Overview.sectionIds : List String := ["generic-overview", "generic-info", "generic-success"]

/-- The order of the sections, which depends on nothing that was found.  Overviews have one order,
whichever language they are of. -/
def Findings.sectionIds : Findings → List String
  | .python _ => PythonFindings.sectionIds
  | .javaScript _ => JavaScriptFindings.sectionIds
  | .html _ => HtmlFindings.sectionIds
  | .css _ => CssFindings.sectionIds
  | .overview _ => Overview.sectionIds

theorem Findings.nodup_sectionIds (f : Findings) : f.sectionIds.Nodup := by
  cases f <;> exact of_decide_eq_true rfl

namespace Section

/-- Sections in an order, none of them empty. -/
structure Listed (order : List String) (sections : List Section) : Prop where
  ordered : (sections.map id).Sublist order
  filled : ∀ x ∈ sections, x.items ≠ []

/-- All is well exactly if nothing is a warning, and that is said last and once. -/
structure Closed (sections : List Section) : Prop where
  success_iff : (∃ x ∈ sections, x.severity = .success) ↔ sections.countP isWarning = 0
  last : sections.countP isWarning = 0 → ∃ front x, sections = front ++ [x] ∧
    x.severity = .success ∧ ∀ y ∈ front, y.severity ≠ .success

theorem isWarning_of_success {x : Section} (h : x.severity = .success) : x.isWarning = false := by
  rw [isWarning, h]
  rfl

theorem severity_ne_of_isWarning {x : Section} (h : x.isWarning = true) :
    x.severity ≠ .success := by
  intro hsuccess
  rw [isWarning_of_success hsuccess] at h
  cases h

theorem listed_filter {order : List String} {candidates : List Section}
    (h : (candidates.map id).Sublist order) : Listed order (candidates.filter hasItems) where
  ordered := (List.filter_sublist.map id).trans h
  filled := by
    intro x hx hnone
    have hitems := (List.mem_filter.1 hx).2
    rw [hasItems, hnone] at hitems
    cases hitems

theorem Listed.append {front back : List String} {sections others : List Section}
    (h : Listed front sections) (h' : Listed back others) :
    Listed (front ++ back) (sections ++ others) where
  ordered := by
    rw [List.map_append]
    exact h.ordered.append h'.ordered
  filled := by
    intro x hx
    rcases List.mem_append.1 hx with hx | hx
    · exact h.filled x hx
    · exact h'.filled x hx

theorem listed_singleton (x : Section) (h : x.items ≠ []) : Listed [x.id] [x] where
  ordered := List.Sublist.refl _
  filled := by
    intro y hy
    rw [List.mem_singleton.1 hy]
    exact h

/-- What was found, and that all is well unless there is a warning in it. -/
def closedBy (success : Section) (found : List Section) : List Section :=
  if found.any isWarning then found else found ++ [success]

theorem closedBy_of_warnings (success : Section) {found : List Section}
    (h : ∀ x ∈ found, x.isWarning = true) :
    (if found.isEmpty then [success] else found) = closedBy success found := by
  cases found with
  | nil => rfl
  | cons x rest => simp [closedBy, h x List.mem_cons_self]

theorem listed_closedBy {order : List String} {success : Section} {found : List Section}
    (h : Listed order found) (hsuccess : success.items ≠ []) :
    Listed (order ++ [success.id]) (closedBy success found) := by
  unfold closedBy
  split
  · exact ⟨h.ordered.trans (List.sublist_append_left _ _), h.filled⟩
  · exact h.append (listed_singleton success hsuccess)

/-- Sections that end by saying that all is well, and do not warn. -/
theorem closed_append_success {found : List Section} {success : Section}
    (hfound : ∀ x ∈ found, x.severity ≠ .success) (hsuccess : success.severity = .success)
    (hnone : ∀ x ∈ found, x.isWarning = false) : Closed (found ++ [success]) := by
  have hcount : (found ++ [success]).countP isWarning = 0 := by
    rw [List.countP_eq_zero]
    intro x hx
    rw [Bool.not_eq_true]
    rcases List.mem_append.1 hx with hx | hx
    · exact hnone x hx
    · rw [List.mem_singleton.1 hx]
      exact isWarning_of_success hsuccess
  have hmem : success ∈ found ++ [success] := List.mem_append_right _ (List.mem_singleton.2 rfl)
  exact ⟨iff_of_true ⟨success, hmem, hsuccess⟩ hcount,
    fun _ => ⟨found, success, rfl, hsuccess, hfound⟩⟩

theorem closed_closedBy {found : List Section} {success : Section}
    (hfound : ∀ x ∈ found, x.severity ≠ .success) (hsuccess : success.severity = .success) :
    Closed (closedBy success found) := by
  unfold closedBy
  split
  · rename_i hany
    obtain ⟨w, hw, hwarns⟩ := List.any_eq_true.1 hany
    have hcount : found.countP isWarning ≠ 0 := by
      rw [Ne, List.countP_eq_zero]
      exact fun h => h w hw hwarns
    refine ⟨iff_of_false ?_ hcount, fun h => absurd h hcount⟩
    rintro ⟨x, hx, hseverity⟩
    exact hfound x hx hseverity
  · rename_i hany
    refine closed_append_success hfound hsuccess ?_
    intro x hx
    rw [Bool.eq_false_iff]
    exact fun h => hany (List.any_eq_true.2 ⟨x, hx, h⟩)

/-- A language whose candidates come in an order, with its success behind them, and none of whose
candidates says that all is well. -/
theorem shape_of_candidates {order : List String} {success : Section} {candidates : List Section}
    (hids : (candidates.map id ++ [success.id]).Sublist order) (hitems : success.items ≠ [])
    (hcandidates : ∀ x ∈ candidates, x.severity ≠ .success)
    (hsuccess : success.severity = .success) :
    Listed order (closedBy success (candidates.filter hasItems)) ∧
      Closed (closedBy success (candidates.filter hasItems)) := by
  have hlisted := listed_closedBy (listed_filter (List.Sublist.refl (candidates.map id))) hitems
  refine ⟨⟨hlisted.ordered.trans hids, hlisted.filled⟩, closed_closedBy ?_ hsuccess⟩
  exact fun x hx => hcandidates x (List.mem_filter.1 hx).1

/-- The same for a language that has warnings only, by its own rule. -/
theorem shape_of_warnings {order : List String} {success : Section} {candidates : List Section}
    (hids : (candidates.map id ++ [success.id]).Sublist order) (hitems : success.items ≠ [])
    (hcandidates : ∀ x ∈ candidates, x.isWarning = true) (hsuccess : success.severity = .success) :
    let found := candidates.filter hasItems
    let sections := if found.isEmpty then [success] else found
    Listed order sections ∧ Closed sections := by
  intro found sections
  have hsections : sections = closedBy success found :=
    closedBy_of_warnings success (fun x hx => hcandidates x (List.mem_filter.1 hx).1)
  rw [hsections]
  exact shape_of_candidates hids hitems
    (fun x hx => severity_ne_of_isWarning (hcandidates x hx)) hsuccess

end Section

/-! ## The languages -/

theorem PythonFindings.severity_of_mem (r : PythonFindings) :
    ∀ x ∈ r.candidates, x.severity ≠ .success := by
  simp [candidates, Section.withHint, Section.warning, Section.info, Section.plain]

theorem PythonFindings.shape (r : PythonFindings) :
    Section.Listed sectionIds r.sections ∧ Section.Closed r.sections :=
  Section.shape_of_candidates (List.Sublist.refl _) (List.cons_ne_nil _ _) r.severity_of_mem rfl

theorem JavaScriptFindings.severity_of_mem (r : JavaScriptFindings) :
    ∀ x ∈ r.candidates, x.severity ≠ .success := by
  cases h : r.lintProblems with
  | none =>
      simp [candidates, h, ownCandidates, Section.withHint, Section.warning, Section.info,
        Section.plain]
  | some problems =>
      simp [candidates, h, ownCandidates, lintCandidates, Section.withHint, Section.warning,
        Section.info, Section.plain]

theorem JavaScriptFindings.ids_sublist (r : JavaScriptFindings) :
    (r.candidates.map Section.id ++ [success.id]).Sublist sectionIds := by
  cases h : r.lintProblems with
  | none =>
      have hids : r.candidates.map Section.id = r.ownCandidates.map Section.id := by
        simp [candidates, h]
      rw [hids]
      exact of_decide_eq_true rfl
  | some problems =>
      have hids : r.candidates.map Section.id =
          r.ownCandidates.map Section.id ++ ["js-eslint-errors", "js-eslint-warnings"] := by
        simp [candidates, h, lintCandidates, Section.warning, Section.plain]
      rw [hids]
      exact of_decide_eq_true rfl

theorem JavaScriptFindings.shape (r : JavaScriptFindings) :
    Section.Listed sectionIds r.sections ∧ Section.Closed r.sections :=
  Section.shape_of_candidates r.ids_sublist (List.cons_ne_nil _ _) r.severity_of_mem rfl

theorem HtmlFindings.isWarning_of_mem (r : HtmlFindings) :
    ∀ x ∈ r.candidates, x.isWarning = true := by
  simp [candidates, Section.isWarning, Section.withHint, Section.warning, Section.plain]

theorem HtmlFindings.shape (r : HtmlFindings) :
    Section.Listed sectionIds r.sections ∧ Section.Closed r.sections :=
  Section.shape_of_warnings (List.Sublist.refl _) (List.cons_ne_nil _ _) r.isWarning_of_mem rfl

theorem CssFindings.isWarning_of_mem (r : CssFindings) :
    ∀ x ∈ r.candidates, x.isWarning = true := by
  simp [candidates, Section.isWarning, Section.warning, Section.plain]

theorem CssFindings.shape (r : CssFindings) :
    Section.Listed sectionIds r.sections ∧ Section.Closed r.sections :=
  Section.shape_of_warnings (List.Sublist.refl _) (List.cons_ne_nil _ _) r.isWarning_of_mem rfl

/-- An overview informs: what stands before its end is no warning and no success. -/
theorem Overview.severity_of_mem (r : Overview) :
    ∀ x ∈ r.statistics :: [r.notes].filter Section.hasItems, x.severity = .info := by
  intro x hx
  rcases List.mem_cons.1 hx with rfl | hx
  · rfl
  · rw [List.mem_singleton.1 (List.mem_filter.1 hx).1]
    rfl

theorem Overview.shape (r : Overview) :
    Section.Listed sectionIds r.sections ∧ Section.Closed r.sections := by
  have hstatistics : Section.Listed ["generic-overview"] [r.statistics] :=
    Section.listed_singleton r.statistics (List.cons_ne_nil _ _)
  have hnotes : Section.Listed ["generic-info"] ([r.notes].filter Section.hasItems) :=
    Section.listed_filter (List.Sublist.refl _)
  have hdone : Section.Listed ["generic-success"] [done] :=
    Section.listed_singleton done (List.cons_ne_nil _ _)
  refine ⟨(hstatistics.append hnotes).append hdone, ?_⟩
  refine Section.closed_append_success ?_ rfl ?_
  · intro x hx
    rw [r.severity_of_mem x hx]
    exact nofun
  · intro x hx
    rw [Section.isWarning, r.severity_of_mem x hx]
    rfl

theorem Findings.shape (f : Findings) :
    Section.Listed f.sectionIds f.sections ∧ Section.Closed f.sections := by
  cases f with
  | python r => exact r.shape
  | javaScript r => exact r.shape
  | html r => exact r.shape
  | css r => exact r.shape
  | overview r => exact r.shape

/-! ## The summary -/

/-- **Every summary has one shape.**  Whatever the findings hold, the ids of the sections are
distinct and in the order of the language, no section is empty, and the issues are the sections
that warn.  All is well exactly if there is no issue, and that is said last and once; an overview
has no issue, and its sections lead from the statistics to its end. -/
theorem summary_has_shape (f : Findings) :
    let s := summarize f
    (s.sections.map Section.id).Nodup ∧
    (s.sections.map Section.id).Sublist f.sectionIds ∧
    (∀ x ∈ s.sections, x.items ≠ []) ∧
    s.issuesCount = s.sections.countP (fun x => x.severity = .warning) ∧
    ((∃ x ∈ s.sections, x.severity = .success) ↔ s.issuesCount = 0) ∧
    (s.issuesCount = 0 → ∃ front last, s.sections = front ++ [last] ∧
      last.severity = .success ∧ ∀ x ∈ front, x.severity ≠ .success) ∧
    ∀ r : Overview,
      (summarize (.overview r)).issuesCount = 0 ∧
      (summarize (.overview r)).sections.head?.map Section.id = some "generic-overview" ∧
      (summarize (.overview r)).sections.getLast?.map Section.id = some "generic-success" := by
  intro s
  obtain ⟨hlisted, hclosed⟩ := f.shape
  refine ⟨f.nodup_sectionIds.sublist hlisted.ordered, hlisted.ordered, hlisted.filled, ?_,
    hclosed.success_iff, hclosed.last, ?_⟩
  · rfl
  · intro r
    refine ⟨r.shape.2.success_iff.1 ⟨Overview.done, ?_, rfl⟩, rfl, ?_⟩
    · exact List.mem_append_right _ (List.mem_singleton.2 rfl)
    · exact congrArg (Option.map Section.id) List.getLast?_concat

end CodeSurvey
