/-
# Records survive their text

Every record that is written as JSON is decoded from its text to the same record
(`records_survive_json`).  A text of a number may be of any length, while a field holds 64 bits, or
eight for the severity of a lint problem; so each record comes with the condition that its numbers
fit their fields (`Fits`).  All else is arbitrary: texts, fields that are left out, and maps.

A lint report lists its problems as messages, which are decoded by rules of their own: what a
message may leave out, a problem always states.  Problems that are written as messages are read
from the report unchanged (`LintReport.parse?_textOf`).
-/
import CodeSurvey.Lint.Report
import CodeSurvey.Proofs.Record.Fields
import CodeSurvey.Record.Findings
import CodeSurvey.Record.Repository

namespace CodeSurvey

open Json (GivenBack IsLayout Spells)

/-! ## Python -/

theorem LineIssue.givenBack {i : LineIssue} (h : i.line < Count.limit) :
    GivenBack ofJson? i.toJson i :=
  .record (.required (.nat h) <| .required (.text _) <| .done _) (by decide) rfl rfl

theorem PrintStatement.givenBack {p : PrintStatement} (h : p.line < Count.limit) :
    GivenBack ofJson? p.toJson p :=
  .record (.required (.nat h) <| .required (.text _) <| .done _) (by decide) rfl rfl

/-- The numbers of a function's complexity fit 64 bits. -/
structure Complexity.Fits (c : Complexity) : Prop where
  line : c.line < Count.limit
  loops : c.loops < Count.limit
  calls : c.calls < Count.limit

theorem Complexity.givenBack {c : Complexity} (h : c.Fits) : GivenBack ofJson? c.toJson c :=
  .record (.required (.text _) <| .required (.nat h.line) <| .required (.nat h.loops) <|
    .required (.nat h.calls) <| .done _) (by decide) rfl rfl

theorem ImportedName.givenBack {i : ImportedName} (h : i.line < Count.limit) :
    GivenBack ofJson? i.toJson i :=
  .record (.required (.text _) <| .required (.nat h) <| .done _) (by decide) rfl rfl

theorem UnusedWrites.givenBack (w : UnusedWrites) : GivenBack ofJson? w.toJson w :=
  .record (.required (.text _) <| .required (.texts _) <| .done _) (by decide) rfl rfl

namespace PythonFindings

/-- The numbers of the findings fit 64 bits. -/
structure Fits (r : PythonFindings) : Prop where
  printStatements : ∀ p ∈ r.printStatements, p.line < Count.limit
  docstringIssues : ∀ i ∈ r.docstringIssues, i.line < Count.limit
  functionComplexity : ∀ c ∈ r.functionComplexity, c.Fits
  styleIssues : ∀ i ∈ r.styleIssues, i.line < Count.limit
  commonErrors : ∀ i ∈ r.commonErrors, i.line < Count.limit
  refactorSuggestions : ∀ i ∈ r.refactorSuggestions, i.line < Count.limit
  unusedImports : ∀ i ∈ r.unusedImports, i.line < Count.limit
  deadCode : ∀ i ∈ r.deadCode, i.line < Count.limit
  thirdPartyCode : ∀ i ∈ r.thirdPartyCode, i.line < Count.limit
  performanceIssues : ∀ i ∈ r.performanceIssues, i.line < Count.limit

theorem givenBack_issues {list : List LineIssue} (h : ∀ i ∈ list, i.line < Count.limit) :
    GivenBack issues? (issues list) list :=
  .list (fun i hi => i.givenBack (h i hi))

theorem givenBack {r : PythonFindings} (h : r.Fits) : GivenBack ofJson? r.toJson r :=
  .record
    (.required (.texts _) <| .required (.texts _) <| .required (.texts _) <|
      .required (.texts _) <| .required (.texts _) <| .required (.texts _) <|
      .required (.list (fun p hp => p.givenBack (h.printStatements p hp))) <|
      .required (.texts _) <|
      .required (givenBack_issues h.docstringIssues) <|
      .required (.list (fun c hc => c.givenBack (h.functionComplexity c hc))) <|
      .required (givenBack_issues h.styleIssues) <|
      .required (givenBack_issues h.commonErrors) <|
      .required (givenBack_issues h.refactorSuggestions) <|
      .required (.list (fun i hi => i.givenBack (h.unusedImports i hi))) <|
      .required (givenBack_issues h.deadCode) <|
      .required (.list (fun group _ => .texts group)) <|
      .required (.list (fun w _ => w.givenBack)) <|
      .required (givenBack_issues h.thirdPartyCode) <|
      .required (givenBack_issues h.performanceIssues) <| .done r)
    (by decide) rfl rfl

end PythonFindings

/-! ## JavaScript -/

namespace LintProblem

/-- The numbers of a problem fit: 64 bits for its place and eight for its severity. -/
structure Fits (p : LintProblem) : Prop where
  severity : p.severity < 256
  line : p.line < Count.limit
  column : p.column < Count.limit

instance (p : LintProblem) : Decidable p.Fits :=
  decidable_of_iff (p.severity < 256 ∧ p.line < Count.limit ∧ p.column < Count.limit)
    ⟨fun h => ⟨h.1, h.2.1, h.2.2⟩, fun h => ⟨h.severity, h.line, h.column⟩⟩

theorem givenBack {p : LintProblem} (h : p.Fits) : GivenBack ofJson? p.toJson p :=
  .record (.optional (.textOrNull _) <| .required (.natBelow (by decide) h.severity) <|
    .required (.text _) <| .required (.nat h.line) <| .required (.nat h.column) <| .done _)
    (by decide) rfl rfl

end LintProblem

theorem NamedLocation.givenBack {l : NamedLocation} (h : l.line < Count.limit) :
    GivenBack ofJson? l.toJson l :=
  .record (.required (.text _) <| .required (.nat h) <| .done _) (by decide) rfl rfl

theorem NumberLiteral.givenBack {n : NumberLiteral} (h : n.line < Count.limit) :
    GivenBack ofJson? n.toJson n :=
  .record (.required (.text _) <| .required (.nat h) <| .done _) (by decide) rfl rfl

theorem TodoComment.givenBack {t : TodoComment} (h : t.line < Count.limit) :
    GivenBack ofJson? t.toJson t :=
  .record (.required (.text _) <| .required (.nat h) <| .done _) (by decide) rfl rfl

namespace JavaScriptFindings

/-- The numbers of the findings fit 64 bits, and those of the lint problems their fields. -/
structure Fits (r : JavaScriptFindings) : Prop where
  declaredFunctions : ∀ l ∈ r.declaredFunctions, l.line < Count.limit
  unusedFunctions : ∀ l ∈ r.unusedFunctions, l.line < Count.limit
  declaredVariables : ∀ l ∈ r.declaredVariables, l.line < Count.limit
  unusedVariables : ∀ l ∈ r.unusedVariables, l.line < Count.limit
  varUsage : ∀ n ∈ r.varUsage, n < Count.limit
  letUsage : ∀ n ∈ r.letUsage, n < Count.limit
  constUsage : ∀ n ∈ r.constUsage, n < Count.limit
  evalUsage : ∀ n ∈ r.evalUsage, n < Count.limit
  documentWriteUsage : ∀ n ∈ r.documentWriteUsage, n < Count.limit
  todoComments : ∀ t ∈ r.todoComments, t.line < Count.limit
  longLines : ∀ n ∈ r.longLines, n < Count.limit
  magicNumbers : ∀ n ∈ r.magicNumbers, n.line < Count.limit
  semicolonMissing : ∀ n ∈ r.semicolonMissing, n < Count.limit
  arrowFunctions : ∀ l ∈ r.arrowFunctions, l.line < Count.limit
  anonymousFunctions : ∀ l ∈ r.anonymousFunctions, l.line < Count.limit
  doubleEquals : ∀ n ∈ r.doubleEquals, n < Count.limit
  tripleEquals : ∀ n ∈ r.tripleEquals, n < Count.limit
  consoleLogUsage : ∀ n ∈ r.consoleLogUsage, n < Count.limit
  lintProblems : ∀ problems ∈ r.lintProblems, ∀ p ∈ problems, p.Fits

theorem givenBack_locations {list : List NamedLocation} (h : ∀ l ∈ list, l.line < Count.limit) :
    GivenBack locations? (locations list) list :=
  .list (fun l hl => l.givenBack (h l hl))

theorem givenBack {r : JavaScriptFindings} (h : r.Fits) : GivenBack ofJson? r.toJson r :=
  .record
    (.required (givenBack_locations h.declaredFunctions) <|
      .required (givenBack_locations h.unusedFunctions) <|
      .required (givenBack_locations h.declaredVariables) <|
      .required (givenBack_locations h.unusedVariables) <|
      .required (.texts _) <|
      .required (.naturals h.varUsage) <| .required (.naturals h.letUsage) <|
      .required (.naturals h.constUsage) <| .required (.naturals h.evalUsage) <|
      .required (.naturals h.documentWriteUsage) <|
      .required (.list (fun t ht => t.givenBack (h.todoComments t ht))) <|
      .required (.naturals h.longLines) <|
      .required (.list (fun n hn => n.givenBack (h.magicNumbers n hn))) <|
      .required (.naturals h.semicolonMissing) <|
      .required (givenBack_locations h.arrowFunctions) <|
      .required (givenBack_locations h.anonymousFunctions) <|
      .required (.naturals h.doubleEquals) <| .required (.naturals h.tripleEquals) <|
      .required (.naturals h.consoleLogUsage) <|
      .leftOut (fun _ => Json.noConfusion)
        (fun problems hrun => .list (fun p hp => p.givenBack (h.lintProblems problems hrun p hp)))
        <| .done r)
    (by decide) rfl (by simp [toJson, keys, Json.membersOf, Json.optionalMember])

end JavaScriptFindings

/-! ## HTML and CSS -/

theorem TagLocation.givenBack {t : TagLocation} (h : t.line < Count.limit) :
    GivenBack ofJson? t.toJson t :=
  .record (.required (.text _) <| .required (.nat h) <| .done _) (by decide) rfl rfl

theorem TagSnippet.givenBack {s : TagSnippet} (h : s.line < Count.limit) :
    GivenBack ofJson? s.toJson s :=
  .record (.required (.text _) <| .required (.nat h) <| .done _) (by decide) rfl rfl

namespace HtmlFindings

/-- The numbers of the findings fit 64 bits. -/
structure Fits (r : HtmlFindings) : Prop where
  unclosedTags : ∀ t ∈ r.unclosedTags, t.line < Count.limit
  missingCloseTags : ∀ t ∈ r.missingCloseTags, t.line < Count.limit
  incompleteTags : ∀ s ∈ r.incompleteTags, s.line < Count.limit
  imgsWithoutAlt : ∀ s ∈ r.imgsWithoutAlt, s.line < Count.limit
  linksWithoutHref : ∀ s ∈ r.linksWithoutHref, s.line < Count.limit

theorem givenBack {r : HtmlFindings} (h : r.Fits) : GivenBack ofJson? r.toJson r :=
  .record
    (.required (.list (fun t ht => t.givenBack (h.unclosedTags t ht))) <|
      .required (.list (fun t ht => t.givenBack (h.missingCloseTags t ht))) <|
      .required (.list (fun s hs => s.givenBack (h.incompleteTags s hs))) <|
      .required (.texts _) <|
      .required (.list (fun s hs => s.givenBack (h.imgsWithoutAlt s hs))) <|
      .required (.list (fun s hs => s.givenBack (h.linksWithoutHref s hs))) <| .done r)
    (by decide) rfl rfl

end HtmlFindings

theorem PropertyIssue.givenBack {i : PropertyIssue} (h : i.line < Count.limit) :
    GivenBack ofJson? i.toJson i :=
  .record (.required (.text _) <| .required (.nat h) <| .required (.text _) <| .done _)
    (by decide) rfl rfl

namespace CssFindings

/-- The numbers of the findings fit 64 bits. -/
structure Fits (r : CssFindings) : Prop where
  selectorLines : ∀ e ∈ r.selectorLines.entries, ∀ n ∈ e.2, n < Count.limit
  invalidProperties : ∀ i ∈ r.invalidProperties, i.line < Count.limit
  repeatedProperties : ∀ i ∈ r.repeatedProperties, i.line < Count.limit
  unknownProperties : ∀ i ∈ r.unknownProperties, i.line < Count.limit

theorem givenBack_issues {list : List PropertyIssue} (h : ∀ i ∈ list, i.line < Count.limit) :
    GivenBack issues? (issues list) list :=
  .list (fun i hi => i.givenBack (h i hi))

theorem givenBack_lines {m : SortedMap String (List Nat)}
    (h : ∀ e ∈ m.entries, ∀ n ∈ e.2, n < Count.limit) :
    GivenBack linesOfJson? (linesToJson m) m := by
  refine .members (fun e he => (GivenBack.naturals (h e he)).kept) (fun e he => ?_)
  rw [(GivenBack.naturals (h e he)).decoded]
  rfl

theorem givenBack {r : CssFindings} (h : r.Fits) : GivenBack ofJson? r.toJson r :=
  .record
    (.required (.texts _) <| .required (givenBack_lines h.selectorLines) <|
      .required (.texts _) <| .required (.texts _) <|
      .required (givenBack_issues h.invalidProperties) <|
      .required (givenBack_issues h.repeatedProperties) <|
      .required (givenBack_issues h.unknownProperties) <| .required (.texts _) <| .done r)
    (by decide) rfl rfl

end CssFindings

/-! ## Overviews and summaries -/

theorem Language.givenBack (language : Language) :
    GivenBack ofJson? language.toJson language :=
  ⟨.string _, by cases language <;> rfl⟩

theorem Severity.givenBack (severity : Severity) :
    GivenBack ofJson? severity.toJson severity :=
  ⟨.string _, by cases severity <;> rfl⟩

/-- The numbers of an overview fit 64 bits. -/
structure Overview.Fits (r : Overview) : Prop where
  lines : r.lines < Count.limit
  comments : r.comments < Count.limit

theorem Overview.givenBack {r : Overview} (h : r.Fits) : GivenBack ofJson? r.toJson r :=
  .record
    (.required r.language.givenBack <| .required (.nat h.lines) <| .required (.texts _) <|
      .required (.nat h.comments) <| .required (.texts _) <| .done r)
    (by decide) rfl rfl

theorem Section.givenBack (s : Section) : GivenBack ofJson? s.toJson s :=
  .record
    (.required (.text _) <| .required (.text _) <| .required s.severity.givenBack <|
      .leftOut (fun _ => Json.noConfusion) (fun text _ => .text text) <|
      .required (.texts _) <|
      .leftOut (fun _ => Json.noConfusion) (fun text _ => .text text) <| .done s)
    (by decide) rfl (by simp [toJson, keys, Json.membersOf, Json.optionalMember])

/-- The number of issues fits 64 bits. -/
def StampedSummary.Fits (s : StampedSummary) : Prop := s.issuesCount < Count.limit

theorem StampedSummary.givenBack {s : StampedSummary} (h : s.Fits) :
    GivenBack ofJson? s.toJson s :=
  .record
    (.required (.text _) <| .required (.nat h) <|
      .required (.list (fun part _ => part.givenBack)) <| .done s)
    (by decide) rfl rfl

/-! ## Repositories -/

namespace FileAnalysis

/-- The numbers of a file's analysis fit 64 bits. -/
structure Fits (f : FileAnalysis) : Prop where
  summary : f.summary.Fits
  issuesCount : f.issuesCount < Count.limit

theorem givenBack {f : FileAnalysis} (h : f.Fits) : GivenBack ofJson? f.toJson f :=
  .record
    (.required (.text _) <| .required f.language.givenBack <|
      .required (StampedSummary.givenBack h.summary) <| .required (.nat h.issuesCount) <|
      .done f)
    (by decide) rfl rfl

end FileAnalysis

/-- The numbers of a tally fit 64 bits. -/
structure Tally.Fits (t : Tally) : Prop where
  files : t.files < Count.limit
  issues : t.issues < Count.limit

theorem Tally.givenBack {t : Tally} (h : t.Fits) : GivenBack ofJson? t.toJson t :=
  .record (.required (.nat h.files) <| .required (.nat h.issues) <| .done t) (by decide) rfl rfl

namespace RepositoryAnalysis

/-- The numbers of a repository's analysis fit 64 bits. -/
structure Fits (r : RepositoryAnalysis) : Prop where
  filesAnalyzed : r.filesAnalyzed < Count.limit
  skipped : r.skipped < Count.limit
  totalIssues : r.totalIssues < Count.limit
  byLanguage : ∀ e ∈ r.byLanguage.entries, e.2.Fits
  files : ∀ f ∈ r.files, f.Fits

theorem givenBack_tallies {m : SortedMap Language Tally} (h : ∀ e ∈ m.entries, e.2.Fits) :
    GivenBack talliesOfJson? (talliesToJson m) m := by
  refine .members (fun e he => (e.2.givenBack (h e he)).kept) (fun e he => ?_)
  have hlanguage : Language.ofTag? e.1.tag = some e.1 := by cases e.1 <;> rfl
  rw [tallyOfMember?, hlanguage, (e.2.givenBack (h e he)).decoded]
  rfl

theorem givenBack {r : RepositoryAnalysis} (h : r.Fits) : GivenBack ofJson? r.toJson r :=
  .record
    (.required (.text _) <|
      .leftOut (fun _ => Json.noConfusion) (fun text _ => .text text) <|
      .required (.nat h.filesAnalyzed) <| .required (.nat h.skipped) <|
      .required (.nat h.totalIssues) <| .required (givenBack_tallies h.byLanguage) <|
      .required (.list (fun f hf => f.givenBack (h.files f hf))) <| .required (.text _) <|
      .given (.bool _) <| .done r)
    (by decide) rfl (by simp [toJson, keys, Json.membersOf, Json.optionalMember])

end RepositoryAnalysis

/-! ## Lint reports -/

namespace LintReport

def entry (problems : List LintProblem) : Json :=
  .object [("messages", .array (problems.map LintProblem.toJson))]

def entryText (layout : Json → String) (problems : List LintProblem) : String :=
  "\x7b\"messages\": " ++ layout (.array (problems.map LintProblem.toJson)) ++ "\x7d"

def textOf (layout : Json → String) (files : List (List LintProblem)) : String :=
  "[" ++ ", ".intercalate (files.map (entryText layout)) ++ "]"

theorem givenBack_message {p : LintProblem} (h : p.Fits) : GivenBack message? p.toJson p :=
  .record
    (.given (.textOrNull _) <| .required (.natBelow (by decide) h.severity) <|
      .required (.text _) <| .given (.nat h.line) <| .given (.nat h.column) <| .done p)
    (by decide) rfl rfl

theorem givenBack_entry {problems : List LintProblem} (h : ∀ p ∈ problems, p.Fits) :
    GivenBack fileReport? (entry problems) problems :=
  .record
    (.last <| .given (.list (fun p hp => givenBack_message (h p hp))) <| .done problems)
    (by decide) rfl rfl

theorem givenBack {files : List (List LintProblem)}
    (h : ∀ problems ∈ files, ∀ p ∈ problems, p.Fits) :
    GivenBack problems? (.array (files.map entry)) files.flatten := by
  have hfiles : GivenBack (Json.list? fileReport?) (.array (files.map entry)) files :=
    .list (fun problems hproblems => givenBack_entry (h problems hproblems))
  refine ⟨hfiles.kept, ?_⟩
  rw [problems?, hfiles.decoded]
  rfl

theorem spells_entryText {layout : Json → String} (hlayout : IsLayout layout)
    {problems : List LintProblem} (h : ∀ p ∈ problems, p.Fits) :
    Spells (entryText layout problems).toList (entry problems).tokensOf := by
  have hproblems := hlayout (.array (problems.map LintProblem.toJson))
    (GivenBack.list (fun p hp => LintProblem.givenBack (h p hp))).kept
  have hclosed := hproblems.append (Spells.nil.mark (c := '}') rfl rfl)
    (fun _ _ => Json.delimited_cons rfl rfl _)
  have hentry := (hclosed.blank.member "messages").mark (c := '{') rfl rfl
  rw [entryText, String.toList_append, String.toList_append]
  exact hentry

theorem spells_entries {layout : Json → String} (hlayout : IsLayout layout)
    {problems : List LintProblem} {files : List (List LintProblem)}
    (h : ∀ others ∈ problems :: files, ∀ p ∈ others, p.Fits) :
    Spells
      (", ".toList.intercalate ((problems :: files).map (String.toList ∘ entryText layout)) ++
        [']'])
      ((entry problems).tokensOf ++ Json.itemTokens (files.map entry)) := by
  have hfirst := spells_entryText hlayout (h problems List.mem_cons_self)
  induction files generalizing problems with
  | nil =>
      rw [List.map_singleton, List.intercalate_singleton]
      exact hfirst.append (Spells.nil.mark rfl rfl) (fun _ _ => Json.delimited_cons rfl rfl _)
  | cons next files ih =>
      have hrest := ih (fun others hothers => h others (List.mem_cons_of_mem _ hothers))
        (spells_entryText hlayout (h next (List.mem_cons_of_mem _ List.mem_cons_self)))
      have hall := hfirst.append (hrest.blank.mark (c := ',') rfl rfl)
        (fun _ _ => Json.delimited_cons rfl rfl _)
      rw [List.map_cons, List.map_cons, List.intercalate_cons_cons, List.append_assoc,
        List.append_assoc]
      exact hall

/-- **The problems of a report are read from its text**, those of all files in order. -/
theorem parse?_textOf {layout : Json → String} (hlayout : IsLayout layout)
    {files : List (List LintProblem)} (h : ∀ problems ∈ files, ∀ p ∈ problems, p.Fits) :
    parse? (textOf layout files) = some files.flatten := by
  have hspells : Spells (textOf layout files).toList (Json.array (files.map entry)).tokensOf := by
    rw [textOf, String.toList_append, String.toList_append, String.toList_intercalate,
      List.map_map]
    cases files with
    | nil => exact (Spells.nil.mark rfl rfl).mark rfl rfl
    | cons problems files => exact (spells_entries hlayout h).mark rfl rfl
  rw [parse?, Json.parse?_of_spells hspells (givenBack h).kept]
  exact (givenBack h).decoded

end LintReport

/-! ## All records -/

/-- **Records survive their text**: the pretty text of each record is decoded to the record, and
the problems in the text of a lint report, in either layout, are read from it unchanged. -/
theorem records_survive_json :
    (∀ r : PythonFindings, r.Fits →
      (Json.parse? r.toJson.pretty.toList).bind PythonFindings.ofJson? = some r) ∧
    (∀ r : JavaScriptFindings, r.Fits →
      (Json.parse? r.toJson.pretty.toList).bind JavaScriptFindings.ofJson? = some r) ∧
    (∀ r : HtmlFindings, r.Fits →
      (Json.parse? r.toJson.pretty.toList).bind HtmlFindings.ofJson? = some r) ∧
    (∀ r : CssFindings, r.Fits →
      (Json.parse? r.toJson.pretty.toList).bind CssFindings.ofJson? = some r) ∧
    (∀ r : Overview, r.Fits →
      (Json.parse? r.toJson.pretty.toList).bind Overview.ofJson? = some r) ∧
    (∀ s : StampedSummary, s.Fits →
      (Json.parse? s.toJson.pretty.toList).bind StampedSummary.ofJson? = some s) ∧
    (∀ f : FileAnalysis, f.Fits →
      (Json.parse? f.toJson.pretty.toList).bind FileAnalysis.ofJson? = some f) ∧
    (∀ r : RepositoryAnalysis, r.Fits →
      (Json.parse? r.toJson.pretty.toList).bind RepositoryAnalysis.ofJson? = some r) ∧
    (∀ layout ∈ [Json.pretty, Json.compact],
      (∀ problems : List LintProblem, (∀ p ∈ problems, p.Fits) →
        LintReport.parse? ("[\x7b\"messages\": " ++
          layout (.array (problems.map LintProblem.toJson)) ++ "\x7d]") = some problems) ∧
      ∀ files : List (List LintProblem), (∀ problems ∈ files, ∀ p ∈ problems, p.Fits) →
        LintReport.parse? (LintReport.textOf layout files) = some files.flatten) := by
  refine ⟨fun r h => (r.givenBack h).of_layout Json.isLayout_pretty,
    fun r h => (r.givenBack h).of_layout Json.isLayout_pretty,
    fun r h => (r.givenBack h).of_layout Json.isLayout_pretty,
    fun r h => (r.givenBack h).of_layout Json.isLayout_pretty,
    fun r h => (r.givenBack h).of_layout Json.isLayout_pretty,
    fun s h => (s.givenBack h).of_layout Json.isLayout_pretty,
    fun f h => (f.givenBack h).of_layout Json.isLayout_pretty,
    fun r h => (r.givenBack h).of_layout Json.isLayout_pretty, fun layout hlayout => ?_⟩
  have hspells : IsLayout layout := by
    rcases List.mem_cons.1 hlayout with rfl | hlayout
    · exact Json.isLayout_pretty
    · rw [List.mem_singleton.1 hlayout]
      exact Json.isLayout_compact
  refine ⟨fun problems h => ?_, fun files h => LintReport.parse?_textOf hspells h⟩
  have hopen : "[\x7b\"messages\": " = "[" ++ "\x7b\"messages\": " := rfl
  have hclose : "\x7d]" = "\x7d" ++ "]" := rfl
  have htext : "[\x7b\"messages\": " ++ layout (.array (problems.map LintProblem.toJson)) ++
      "\x7d]" = LintReport.textOf layout [problems] := by
    rw [LintReport.textOf, List.map_singleton, String.intercalate_singleton,
      LintReport.entryText, hopen, hclose]
    simp only [String.append_assoc]
  rw [htext, LintReport.parse?_textOf hspells (List.forall_mem_singleton.2 h),
    List.flatten_singleton]

/-- A script with two lint problems, one of them without a rule. -/
def lintedScript : JavaScriptFindings :=
  { (default : JavaScriptFindings) with
    varUsage := [3]
    magicNumbers := [⟨"42", 7⟩]
    lintProblems := some [⟨some "no-undef", 2, "\"x\" is not defined", 3, 1⟩,
      ⟨none, 1, "unused", 18446744073709551615, 0⟩] }

/-- A repository with one file and no branch. -/
def smallRepository : RepositoryAnalysis where
  url := "https://example.com/r.git"
  branch := none
  filesAnalyzed := 1
  skipped := 0
  totalIssues := 1
  byLanguage := .ofEntries [(.javaScript, ⟨1, 1⟩)]
  files := [⟨"a.js", .javaScript, ⟨"2024-01-01T00:00:00Z", 1, [.warning "js-var" "Use of var"
    ["Line 3"]]⟩, 1⟩]
  generatedAt := "2024-01-01T00:00:00Z"
  cancelled := false

theorem lintedScript_survives :
    (Json.parse? lintedScript.toJson.pretty.toList).bind JavaScriptFindings.ofJson? =
      some lintedScript ∧
    (Json.parse? smallRepository.toJson.pretty.toList).bind RepositoryAnalysis.ofJson? =
      some smallRepository ∧
    LintReport.parse? (LintReport.textOf Json.compact [[], [⟨none, 1, "unused", 4, 2⟩], []]) =
      some [⟨none, 1, "unused", 4, 2⟩] := by
  have hscript : lintedScript.Fits := by constructor <;> decide
  have hrepository : smallRepository.Fits :=
    ⟨by decide, by decide, by decide,
      List.forall_mem_singleton.2 (⟨by decide, by decide⟩ : Tally.Fits ⟨1, 1⟩),
      List.forall_mem_singleton.2 ⟨(by decide : 1 < Count.limit), by decide⟩⟩
  obtain ⟨-, hscripts, -, -, -, -, -, hrepositories, hlint⟩ := records_survive_json
  exact ⟨hscripts _ hscript, hrepositories _ hrepository,
    (hlint Json.compact (List.mem_cons_of_mem _ List.mem_cons_self)).2 _ (by decide)⟩

end CodeSurvey
