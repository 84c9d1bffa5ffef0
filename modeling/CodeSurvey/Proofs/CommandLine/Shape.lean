/-
# The shape of a run's record

A run over files writes one JSON text.  It is an object or an array, and whoever reads it would
like to know which from the command line.  But the choice is made from the reports that were come
by, so it is told by the arguments only where the failures leave it alone
(`json_follows_arguments_iff`): one file of several that is analyzed while the others fail is
written as if it had been the only one, and one file that fails is written as an array of none.
-/
import CodeSurvey.Proofs.CommandLine.Separate

namespace CodeSurvey.CommandLine

variable {w : World} {o : AnalyzeOptions} {task : FileTask}

def IsArray (text : String) : Prop := ∃ items, text = Report.jsonText (.array items)

def IsObject (text : String) : Prop := ∃ members, text = Report.jsonText (.object members)

theorem head?_of_isArray {text : String} (h : IsArray text) : text.toList.head? = some '[' := by
  obtain ⟨items, rfl⟩ := h
  rw [Report.jsonText, Json.pretty, String.toList_append, String.toList_ofList]
  cases items with
  | nil => rfl
  | cons item rest => simp [Json.prettyChars]

theorem head?_of_isObject {text : String} (h : IsObject text) : text.toList.head? = some '{' := by
  obtain ⟨members, rfl⟩ := h
  rw [Report.jsonText, Json.pretty, String.toList_append, String.toList_ofList]
  cases members with
  | nil => rfl
  | cons member rest => simp [Json.prettyChars]

theorem not_isArray_of_isObject {text : String} (h : IsObject text) : ¬IsArray text := by
  intro harray
  have hhead := head?_of_isArray harray
  rw [head?_of_isObject h] at hhead
  exact absurd hhead (by decide)

/-- The shape that the command line alone tells: a report for one file, an array for several. -/
structure FollowsArguments (w : World) (o : AnalyzeOptions) (task : FileTask) (text : String) :
    Prop where
  single : o.files.length = 1 → ¬IsArray text ∧
    ∀ report ∈ reportsOf w task o.files, text = Report.jsonText report.toJson
  several : o.files.length ≠ 1 →
    text = Report.jsonText (.array ((reportsOf w task o.files).map FileReport.toJson))

/-- Whether exactly one of the arguments does not fail. -/
def OneAnalyzed (w : World) (o : AnalyzeOptions) : Prop :=
  ∃ before path after, o.files = before ++ path :: after ∧ (∀ fault, ¬Fails w o path fault) ∧
    ∀ other ∈ before ++ after, ∃ fault, Fails w o other fault

theorem Prepared.toOption_eq_none_iff {format : OutputFormat} (h : Prepared w o format task)
    {path : String} :
    (analyzeFile w task path).toOption = none ↔ ∃ fault, Fails w o path fault := by
  cases hpath : analyzeFile w task path with
  | error fault => exact iff_of_true rfl ⟨fault, h.analyzeFile_eq_error_iff.1 hpath⟩
  | ok report =>
      refine iff_of_false nofun ?_
      rintro ⟨fault, hfails⟩
      rw [h.analyzeFile_eq_error_iff.2 hfails] at hpath
      cases hpath

theorem Prepared.oneAnalyzed_iff {format : OutputFormat} (h : Prepared w o format task) :
    OneAnalyzed w o ↔ ∃ report, reportsOf w task o.files = [report] := by
  constructor
  · rintro ⟨before, path, after, hfiles, hpath, hother⟩
    cases hreport : (analyzeFile w task path).toOption with
    | none =>
        obtain ⟨fault, hfails⟩ := h.toOption_eq_none_iff.1 hreport
        exact absurd hfails (hpath fault)
    | some report =>
        have hbefore : ∀ other ∈ before, (analyzeFile w task other).toOption = none :=
          fun other hmem => h.toOption_eq_none_iff.2 (hother other (List.mem_append_left _ hmem))
        have hafter : ∀ other ∈ after, (analyzeFile w task other).toOption = none :=
          fun other hmem => h.toOption_eq_none_iff.2 (hother other (List.mem_append_right _ hmem))
        refine ⟨report, ?_⟩
        rw [reportsOf, hfiles, List.filterMap_eq_cons_iff]
        exact ⟨before, path, after, rfl, hbefore, hreport, List.filterMap_eq_nil_iff.2 hafter⟩
  · rintro ⟨report, hreports⟩
    obtain ⟨before, path, after, hfiles, hbefore, hreport, hafter⟩ :=
      List.filterMap_eq_cons_iff.1 hreports
    refine ⟨before, path, after, hfiles, ?_, ?_⟩
    · intro fault hfails
      rw [h.toOption_eq_none_iff.2 ⟨fault, hfails⟩] at hreport
      cases hreport
    · intro other hmem
      rcases List.mem_append.1 hmem with hmem | hmem
      · exact h.toOption_eq_none_iff.1 (hbefore other hmem)
      · exact h.toOption_eq_none_iff.1 (List.filterMap_eq_nil_iff.1 hafter other hmem)

theorem oneAnalyzed_iff_of_not_someFails (h : ¬SomeFails w o) :
    OneAnalyzed w o ↔ o.files.length = 1 := by
  constructor
  · rintro ⟨before, path, after, hfiles, -, hother⟩
    have hnone : before ++ after = [] := by
      refine List.eq_nil_iff_forall_not_mem.2 (fun other hmem => ?_)
      obtain ⟨fault, hfails⟩ := hother other hmem
      refine h ⟨other, ?_, fault, hfails⟩
      rw [hfiles]
      simp only [List.mem_append, List.mem_cons] at hmem ⊢
      exact hmem.imp_right .inr
    rw [List.append_eq_nil_iff] at hnone
    simp [hfiles, hnone]
  · intro hlength
    obtain ⟨path, hfiles⟩ := List.length_eq_one_iff.1 hlength
    refine ⟨[], path, [], hfiles, ?_, by simp⟩
    intro fault hfails
    exact h ⟨path, by simp [hfiles], fault, hfails⟩

theorem recordOf_of_ne_singleton {reports : List FileReport} (h : ∀ report, reports ≠ [report]) :
    Report.recordOf reports = .array (reports.map FileReport.toJson) := by
  match reports, h with
  | [], _ | _ :: _ :: _, _ => rfl
  | [report], h => exact absurd rfl (h report)

theorem Prepared.output_eq_record (h : Prepared w o .json task) :
    (runAnalyze w o).output =
      Report.jsonText (Report.recordOf (reportsOf w task o.files)) := by
  rw [h.runAnalyze_eq, value_askFiles]
  rfl

theorem Prepared.bare_of_oneAnalyzed (h : Prepared w o .json task) (hone : OneAnalyzed w o) :
    ∃ report, reportsOf w task o.files = [report] ∧
      (runAnalyze w o).output = Report.jsonText report.toJson := by
  obtain ⟨report, hreports⟩ := h.oneAnalyzed_iff.1 hone
  refine ⟨report, hreports, ?_⟩
  rw [h.output_eq_record, hreports]
  rfl

theorem Prepared.array_of_not_oneAnalyzed (h : Prepared w o .json task)
    (hone : ¬OneAnalyzed w o) :
    (runAnalyze w o).output =
      Report.jsonText (.array ((reportsOf w task o.files).map FileReport.toJson)) := by
  rw [h.output_eq_record, recordOf_of_ne_singleton]
  intro report hreports
  exact hone (h.oneAnalyzed_iff.2 ⟨report, hreports⟩)

theorem Prepared.follows_iff (h : Prepared w o .json task) :
    FollowsArguments w o task (runAnalyze w o).output ↔
      (OneAnalyzed w o ↔ o.files.length = 1) := by
  constructor
  · intro hfollows
    constructor
    · intro hone
      obtain ⟨report, -, houtput⟩ := h.bare_of_oneAnalyzed hone
      by_contra hlength
      exact not_isArray_of_isObject ⟨_, houtput⟩ ⟨_, hfollows.several hlength⟩
    · intro hlength
      by_contra hone
      exact (hfollows.single hlength).1 ⟨_, h.array_of_not_oneAnalyzed hone⟩
  · intro hsame
    constructor
    · intro hlength
      obtain ⟨report, hreports, houtput⟩ := h.bare_of_oneAnalyzed (hsame.2 hlength)
      refine ⟨not_isArray_of_isObject ⟨_, houtput⟩, ?_⟩
      intro other hmem
      rw [hreports, List.mem_singleton] at hmem
      rw [houtput, hmem]
    · intro hlength
      exact h.array_of_not_oneAnalyzed (fun hone => hlength (hsame.1 hone))

/-- **The shape of the record** is that of the reports there are: a bare report if one file was
analyzed, and an array of the reports in order if not.  So it follows the arguments exactly if one
file is analyzed just where one is given, which is so where no file fails. -/
theorem json_follows_arguments_iff (h : Prepared w o .json task) :
    (OneAnalyzed w o → ∃ report, reportsOf w task o.files = [report] ∧
      (runAnalyze w o).output = Report.jsonText report.toJson) ∧
    (¬OneAnalyzed w o → (runAnalyze w o).output =
      Report.jsonText (.array ((reportsOf w task o.files).map FileReport.toJson))) ∧
    (FollowsArguments w o task (runAnalyze w o).output ↔
      (OneAnalyzed w o ↔ o.files.length = 1)) ∧
    (¬SomeFails w o → FollowsArguments w o task (runAnalyze w o).output) := by
  refine ⟨h.bare_of_oneAnalyzed, h.array_of_not_oneAnalyzed, h.follows_iff, ?_⟩
  intro hfails
  exact h.follows_iff.2 (oneAnalyzed_iff_of_not_someFails hfails)

/-- A run for a record on some files of the small world. -/
def recordFor (files : List String) : AnalyzeOptions := { fourFiles with files, format := "json" }

theorem prepared_recordFor (files : List String) :
    Prepared smallWorld (recordFor files) .json ⟨none, none, none⟩ where
  named := show OutputFormat.ofName? "json" = some .json by decide
  rows := nofun
  language := rfl
  settings := ⟨_, rfl, rfl⟩
  html := rfl

theorem not_someFails_recordFor : ¬SomeFails smallWorld (recordFor ["a.rb", "a.rb"]) := by
  rintro ⟨path, hmem, fault, hfails⟩
  have hpath : path = "a.rb" := by
    simpa [recordFor] using hmem
  subst hpath
  exact (prepared_recordFor ["a.rb", "a.rb"]).faultOf?_eq_none_iff.1 rfl fault hfails

theorem oneAnalyzed_recordFor : OneAnalyzed smallWorld (recordFor ["b.rb", "a.rb"]) :=
  (prepared_recordFor _).oneAnalyzed_iff.2 ⟨_, rfl⟩

theorem recordFor_follows_arguments :
    Prepared smallWorld (recordFor ["a.rb", "a.rb"]) .json ⟨none, none, none⟩ ∧
      FollowsArguments smallWorld (recordFor ["a.rb", "a.rb"]) ⟨none, none, none⟩
        (runAnalyze smallWorld (recordFor ["a.rb", "a.rb"])).output ∧
      OneAnalyzed smallWorld (recordFor ["b.rb", "a.rb"]) ∧
      IsObject (runAnalyze smallWorld (recordFor ["b.rb", "a.rb"])).output := by
  refine ⟨prepared_recordFor _, ?_, oneAnalyzed_recordFor, ?_⟩
  · exact (json_follows_arguments_iff (prepared_recordFor _)).2.2.2 not_someFails_recordFor
  · obtain ⟨report, -, houtput⟩ :=
      (json_follows_arguments_iff (prepared_recordFor _)).1 oneAnalyzed_recordFor
    exact ⟨_, houtput⟩

/-- The shape is not told by the command line: the object for two files, of which one fails. -/
theorem not_follows_arguments_recordFor :
    (recordFor ["b.rb", "a.rb"]).files.length = 2 ∧
      Prepared smallWorld (recordFor ["b.rb", "a.rb"]) .json ⟨none, none, none⟩ ∧
      IsObject (runAnalyze smallWorld (recordFor ["b.rb", "a.rb"])).output ∧
      ¬FollowsArguments smallWorld (recordFor ["b.rb", "a.rb"]) ⟨none, none, none⟩
        (runAnalyze smallWorld (recordFor ["b.rb", "a.rb"])).output := by
  have h := prepared_recordFor ["b.rb", "a.rb"]
  obtain ⟨report, -, houtput⟩ := h.bare_of_oneAnalyzed oneAnalyzed_recordFor
  refine ⟨rfl, h, ⟨_, houtput⟩, fun hfollows => ?_⟩
  exact absurd ((h.follows_iff.1 hfollows).1 oneAnalyzed_recordFor) (by decide)

end CodeSurvey.CommandLine
