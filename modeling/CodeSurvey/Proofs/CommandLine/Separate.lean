/-
# Files are analyzed one by one

A run over several files comes to what the runs for each of them come to, put together in the order
of the arguments (`files_analyzed_separately`).  A file that cannot be analyzed adds one complaint
and takes nothing away from the others; it only shows in the exit code, where it outranks issues.
What the pretty format prints of a file that can be analyzed is laid out line by line in
`FileReport.entries`, and what it is a report of in `reportAt`.

Before any of this a command line may be refused, for one of six reasons (`Refused`).  A refusal is
settled by the settings and by the document that style sheets are checked against.  Two worlds that
agree on those (`SameSetup`) refuse alike, whatever their files hold and their tools would say; and
they do so with the same effects, among which no file to be analyzed is read and no tool is run.  It
is not for want of being put down that these are missing: where nothing is refused, each file whose
language is told is among the files read, and each script with something in it among the runs of
the lint tool.
-/
import Mathlib.Tactic.ByContra
import CodeSurvey.Proofs.CommandLine.Traces
import CodeSurvey.Proofs.Report.Printed

namespace CodeSurvey.CommandLine

variable {w w' : World} {o : AnalyzeOptions} {format : OutputFormat} {task : FileTask}
  {path : String}

/-! ## Refusals -/

/-- What is refused of a command line before it comes to its files. -/
inductive Refused (w : World) (o : AnalyzeOptions) : Prop
  | format : OutputFormat.ofName? o.format = none → Refused w o
  /-- Rows do not name their file, so they are written for one file only. -/
  | rows : OutputFormat.ofName? o.format = some .csv → o.files.length ≠ 1 → Refused w o
  | language {tag : String} {e : UnsupportedLanguage} :
      o.language = some tag → Language.ofTag tag = .error e → Refused w o
  | settings {e : LoadError} : Settings.load w.source o.settings = .error e → Refused w o
  | unreadable {path : String} {e : FileError} :
      o.html = some path → w.source.read path = .error e → Refused w o
  | notText {path : String} {bytes : List UInt8} :
      o.html = some path → w.source.read path = .ok bytes → Text.decodeUtf8? bytes = none →
      Refused w o

theorem readFormat_eq_ok_iff {name : String} :
    readFormat name = .ok format ↔ OutputFormat.ofName? name = some format := by
  unfold readFormat
  cases OutputFormat.ofName? name with
  | none => simp
  | some found => simp

theorem askSettings_eq_ok_iff {named : Option String} {settings : Settings} :
    (askSettings w.host named).value = .ok settings ↔
      Settings.load w.source named = .ok settings := by
  have hvalue : (askSettings w.host named).value =
      (Settings.load w.source named).mapError LoadError.message := by
    rw [askSettings, loadSettings_host]
    rfl
  rw [hvalue]
  cases Settings.load w.source named with
  | error e => simp [Except.mapError]
  | ok found => simp [Except.mapError]

/-- The text of the document that style sheets are checked against. -/
def readDocument (w : World) (named : Option String) : Except String (Option String) :=
  (askDocument w.host named).value

theorem readDocument_some (path : String) :
    readDocument w (some path) =
      match w.source.read path with
      | .error e => .error ((FileFault.unreadable e).message path)
      | .ok bytes =>
        match Text.decodeUtf8? bytes with
        | some text => .ok (some text)
        | none => .error ((FileFault.unreadable .notText).message path) := by
  have hread : w.host.read .document path = ⟨[.read .document path], w.source.read path⟩ := rfl
  simp only [readDocument, askDocument, hread, Traced.value_bind]
  cases w.source.read path with
  | error e => rfl
  | ok bytes =>
      simp only [Except.bind]
      cases Text.decodeUtf8? bytes with
      | none => rfl
      | some text => rfl

/-- What a command line is prepared to when nothing of it is refused. -/
structure Prepared (w : World) (o : AnalyzeOptions) (format : OutputFormat) (task : FileTask) :
    Prop where
  named : OutputFormat.ofName? o.format = some format
  rows : format = .csv → o.files.length = 1
  language : readLanguage o.language = .ok task.forced
  settings : ∃ settings, Settings.load w.source o.settings = .ok settings ∧
    task.lint = settings.lint.command
  html : readDocument w o.html = .ok task.html

theorem prepareFiles_eq_ok_iff :
    (prepareFiles w.host o).run.value = .ok (format, task) ↔ Prepared w o format task := by
  constructor
  · intro h
    obtain ⟨found, hformat, h⟩ := exists_of_value_bind_eq_ok h
    by_cases hrows : found = .csv ∧ o.files.length ≠ 1
    · rw [if_pos hrows] at h
      cases h
    rw [if_neg hrows] at h
    obtain ⟨forced, hlanguage, h⟩ := exists_of_value_bind_eq_ok h
    obtain ⟨settings, hsettings, h⟩ := exists_of_value_bind_eq_ok h
    obtain ⟨html, hhtml, h⟩ := exists_of_value_bind_eq_ok h
    cases h
    refine ⟨readFormat_eq_ok_iff.1 hformat, ?_, hlanguage,
      ⟨settings, askSettings_eq_ok_iff.1 hsettings, rfl⟩, hhtml⟩
    intro hcsv
    by_contra hlength
    exact hrows ⟨hcsv, hlength⟩
  · intro h
    obtain ⟨settings, hsettings, hlint⟩ := h.settings
    have hrows : ¬(format = .csv ∧ o.files.length ≠ 1) := fun ⟨hcsv, hlength⟩ =>
      hlength (h.rows hcsv)
    have hformat : (liftM (readFormat o.format) : ExceptT String Traced _).run.value = .ok format :=
      readFormat_eq_ok_iff.2 h.named
    have hlanguage : (liftM (readLanguage o.language) : ExceptT String Traced _).run.value =
        .ok task.forced := h.language
    have hload : (ExceptT.mk (askSettings w.host o.settings)).run.value = .ok settings :=
      askSettings_eq_ok_iff.2 hsettings
    have hhtml : (ExceptT.mk (askDocument w.host o.html)).run.value = .ok task.html := h.html
    rw [prepareFiles, value_bind_of_ok hformat, if_neg hrows]
    show (_ >>= _ : ExceptT String Traced _).run.value = _
    rw [value_bind_of_ok hlanguage, value_bind_of_ok hload, value_bind_of_ok hhtml, ← hlint]
    rfl

theorem readDocument_ok (h : ¬Refused w o) : ∃ html, readDocument w o.html = .ok html := by
  cases hhtml : o.html with
  | none => exact ⟨none, rfl⟩
  | some path =>
      cases hread : w.source.read path with
      | error e => exact absurd (.unreadable hhtml hread) h
      | ok bytes =>
          cases htext : Text.decodeUtf8? bytes with
          | none => exact absurd (.notText hhtml hread htext) h
          | some text => exact ⟨some text, by simp [readDocument_some, hread, htext]⟩

theorem readLanguage_ok (h : ¬Refused w o) : ∃ forced, readLanguage o.language = .ok forced := by
  cases hlanguage : o.language with
  | none => exact ⟨none, rfl⟩
  | some tag =>
      cases htag : Language.ofTag tag with
      | error e => exact absurd (.language hlanguage htag) h
      | ok language => exact ⟨some language, by simp [readLanguage, htag]⟩

theorem prepared_of_not_refused (h : ¬Refused w o) : ∃ format task, Prepared w o format task := by
  cases hformat : OutputFormat.ofName? o.format with
  | none => exact absurd (.format hformat) h
  | some format =>
      cases hsettings : Settings.load w.source o.settings with
      | error e => exact absurd (.settings hsettings) h
      | ok settings =>
          obtain ⟨forced, hlanguage⟩ := readLanguage_ok h
          obtain ⟨html, hhtml⟩ := readDocument_ok h
          refine ⟨format, ⟨forced, html, settings.lint.command⟩, hformat, ?_, hlanguage,
            ⟨settings, hsettings, rfl⟩, hhtml⟩
          intro hcsv
          by_contra hlength
          exact h (.rows (hcsv ▸ hformat) hlength)

theorem Prepared.not_refused (h : Prepared w o format task) : ¬Refused w o := by
  intro hrefused
  cases hrefused with
  | format hformat => rw [h.named] at hformat; cases hformat
  | rows hcsv hlength =>
      rw [h.named] at hcsv
      exact hlength (h.rows (Option.some.inj hcsv))
  | language hlanguage htag =>
      have hread := h.language
      rw [hlanguage, readLanguage, htag] at hread
      cases hread
  | settings hsettings =>
      obtain ⟨settings, hload, -⟩ := h.settings
      rw [hload] at hsettings
      cases hsettings
  | unreadable hhtml hread =>
      have hdocument := h.html
      rw [hhtml] at hdocument
      simp [readDocument_some, hread] at hdocument
  | notText hhtml hread htext =>
      have hdocument := h.html
      rw [hhtml] at hdocument
      simp [readDocument_some, hread, htext] at hdocument

theorem Refused.prepareFiles_eq (h : Refused w o) :
    ∃ text, (prepareFiles w.host o).run.value = .error text := by
  cases hprepare : (prepareFiles w.host o).run.value with
  | error text => exact ⟨text, rfl⟩
  | ok prepared => exact absurd h (prepareFiles_eq_ok_iff.1 hprepare).not_refused

/-- Two worlds with the same settings and the same document for style sheets.  Of their other files,
and of their tools, nothing is said. -/
structure SameSetup (o : AnalyzeOptions) (w w' : World) : Prop where
  settings : w'.source.find o.settings = w.source.find o.settings
  environment : w'.source.environment = w.source.environment
  document : ∀ path, o.html = some path → w'.source.read path = w.source.read path

theorem SameSetup.prepareFiles_eq (h : SameSetup o w w') :
    prepareFiles w'.host o = prepareFiles w.host o := by
  have hsettings : askSettings w'.host o.settings = askSettings w.host o.settings := by
    simp only [askSettings, loadSettings_host, Settings.load, h.settings, h.environment]
  have hdocument : askDocument w'.host o.html = askDocument w.host o.html := by
    cases hhtml : o.html with
    | none => rfl
    | some path => simp only [askDocument, World.host, h.document path hhtml]
  simp only [prepareFiles, hsettings, hdocument]

theorem analyzeFiles_of_error {text : String}
    (h : (prepareFiles w.host o).run.value = .error text) :
    analyzeFiles w.host o = ⟨(prepareFiles w.host o).run.effects, refusal text⟩ := by
  refine Traced.ext ?_ ?_
  · rw [analyzeFiles, Traced.effects_bind, h]
    exact List.append_nil _
  · rw [analyzeFiles, Traced.value_bind, h]
    rfl

/-! ## One file -/

/-- Whether the language of a file is told, by the command line or by its extension. -/
def HasLanguage (o : AnalyzeOptions) (path : String) : Prop :=
  o.language ≠ none ∨ Language.ofPath? path.toList ≠ none

/-- What keeps a file from being analyzed. -/
inductive Fails (w : World) (o : AnalyzeOptions) (path : String) : FileFault → Prop
  | unknownLanguage : ¬HasLanguage o path → Fails w o path .unknownLanguage
  | unreadable {reason : FileError} :
      HasLanguage o path → w.source.read path = .error reason →
      Fails w o path (.unreadable reason)
  | empty : HasLanguage o path → w.source.read path = .ok [] → Fails w o path .empty

theorem Prepared.forced_eq_none_iff (h : Prepared w o format task) :
    task.forced = none ↔ o.language = none := by
  have hlanguage := h.language
  unfold readLanguage at hlanguage
  cases hgiven : o.language with
  | none =>
      rw [hgiven] at hlanguage
      exact iff_of_true (Except.ok.inj hlanguage).symm rfl
  | some tag =>
      rw [hgiven] at hlanguage
      cases htag : Language.ofTag tag with
      | error e => simp [htag] at hlanguage
      | ok language =>
          simp only [htag, Except.ok.injEq] at hlanguage
          simp [← hlanguage]

theorem Prepared.language_eq_none_iff (h : Prepared w o format task) (path : String) :
    (task.forced <|> Language.ofPath? path.toList) = none ↔ ¬HasLanguage o path := by
  rw [HasLanguage, ne_eq, ← h.forced_eq_none_iff]
  cases task.forced with
  | none => simp
  | some language => simp

theorem analyzeFile_of_unknown (h : (task.forced <|> Language.ofPath? path.toList) = none) :
    analyzeFile w task path = .error .unknownLanguage := by
  rw [analyzeFile, askFile_of_unknown w h]

theorem analyzeFile_of_known {language : Language}
    (h : (task.forced <|> Language.ofPath? path.toList) = some language) :
    analyzeFile w task path =
      match w.source.read path with
      | .error e => .error (.unreadable e)
      | .ok [] => .error .empty
      | .ok bytes => .ok (reportAt w task language path bytes) := by
  rw [analyzeFile, askFile_of_known w h]
  cases w.source.read path with
  | error e => rfl
  | ok bytes =>
      cases bytes with
      | nil => rfl
      | cons byte bytes => rfl

theorem Prepared.analyzeFile_eq_error_iff (h : Prepared w o format task) {fault : FileFault} :
    analyzeFile w task path = .error fault ↔ Fails w o path fault := by
  have hlanguage := h.language_eq_none_iff path
  cases htold : (task.forced <|> Language.ofPath? path.toList) with
  | none =>
      have hunknown := hlanguage.1 htold
      rw [analyzeFile_of_unknown htold]
      constructor
      · intro hfault
        rw [← Except.error.inj hfault]
        exact .unknownLanguage hunknown
      · intro hfails
        cases hfails with
        | unknownLanguage _ => rfl
        | unreadable hknown _ | empty hknown _ => exact absurd hknown hunknown
  | some language =>
      have hknown : HasLanguage o path := by
        by_contra hunknown
        rw [hlanguage.2 hunknown] at htold
        cases htold
      rw [analyzeFile_of_known htold]
      constructor
      · intro hfault
        split at hfault
        · rename_i reason hread
          rw [← Except.error.inj hfault]
          exact .unreadable hknown hread
        · rename_i hread
          rw [← Except.error.inj hfault]
          exact .empty hknown hread
        · cases hfault
      · intro hfails
        cases hfails with
        | unknownLanguage hunknown => exact absurd hknown hunknown
        | unreadable _ hread | empty _ hread => rw [hread]

/-! ## The run for one file -/

def reportsOf (w : World) (task : FileTask) (paths : List String) : List FileReport :=
  paths.filterMap (fun path => (analyzeFile w task path).toOption)

/-- The complaint about a file that cannot be analyzed. -/
def faultOf? (w : World) (task : FileTask) (path : String) : Option String :=
  complaintOn? (path, analyzeFile w task path)

theorem value_askFiles (w : World) (task : FileTask) (format : OutputFormat) (failOnIssues : Bool)
    (paths : List String) :
    (askFiles w.host task format failOnIssues paths).value =
      { code :=
          if (paths.filterMap (faultOf? w task)).isEmpty then
            codeFor failOnIssues (Count.total ((reportsOf w task paths).map (·.summary.issuesCount)))
          else errorCode
        output :=
          Report.filesTextIn format (wantsColors w.source.environment) (reportsOf w task paths)
        errors := paths.filterMap (faultOf? w task)
        cloned := none } := by
  have hanalyzed :
      (paths.mapM (fun path => do return (path, ← askFile w.host task path))).value =
        paths.map (fun path => (path, analyzeFile w task path)) := by
    rw [Traced.value_mapM]
    rfl
  rw [askFiles, Traced.value_bind, hanalyzed]
  simp only [outcomeOf, List.filterMap_map]
  rfl

theorem Prepared.analyzeFiles_eq (h : Prepared w o format task) :
    analyzeFiles w.host o =
      ⟨(prepareFiles w.host o).run.effects ++
          (askFiles w.host task format o.failOnIssues o.files).effects,
        (askFiles w.host task format o.failOnIssues o.files).value⟩ := by
  rw [analyzeFiles]
  refine Traced.ext ?_ ?_
  · rw [Traced.effects_bind, prepareFiles_eq_ok_iff.2 h]
  · rw [Traced.value_bind, prepareFiles_eq_ok_iff.2 h]

def runAlone (w : World) (o : AnalyzeOptions) (time path : String) : Outcome :=
  runAnalyze { w with time } { o with files := [path] }

theorem Prepared.runAnalyze_eq (h : Prepared w o format task) :
    runAnalyze w o = (askFiles w.host task format o.failOnIssues o.files).value := by
  rw [runAnalyze, h.analyzeFiles_eq]

theorem Prepared.runAlone_eq (h : Prepared w o format task) (time path : String) :
    runAlone w o time path =
      (askFiles { w with time }.host task format o.failOnIssues [path]).value := by
  have hprepared : Prepared { w with time } { o with files := [path] } format task :=
    ⟨h.named, fun _ => rfl, h.language, h.settings, h.html⟩
  exact hprepared.runAnalyze_eq

/-- The time of a run shows in the stamp of a report and nowhere else. -/
theorem analyzeFile_at (time path : String) :
    analyzeFile { w with time } task path =
      (analyzeFile w task path).map
        (fun r => { r with summary := { r.summary with generatedAt := time } }) := by
  cases htold : (task.forced <|> Language.ofPath? path.toList) with
  | none => rw [analyzeFile_of_unknown htold, analyzeFile_of_unknown htold, Except.map]
  | some language =>
      rw [analyzeFile_of_known htold, analyzeFile_of_known htold]
      cases w.source.read path with
      | error e => rfl
      | ok bytes =>
          cases bytes with
          | nil => rfl
          | cons byte bytes => rfl

theorem Prepared.runAlone_of_error (h : Prepared w o format task) {fault : FileFault}
    (hfault : analyzeFile w task path = .error fault) (time : String) :
    runAlone w o time path =
      ⟨errorCode, Report.filesTextIn format (wantsColors w.source.environment) [],
        [complaint (fault.message path)], none⟩ := by
  have hlater : analyzeFile { w with time } task path = .error fault := by
    rw [analyzeFile_at, hfault]
    rfl
  rw [h.runAlone_eq, value_askFiles, reportsOf]
  simp [faultOf?, complaintOn?, hlater, Except.toOption]

theorem Prepared.runAlone_of_ok (h : Prepared w o format task) {report : FileReport}
    (hreport : analyzeFile w task path = .ok report) (time : String) :
    runAlone w o time path =
      ⟨codeFor o.failOnIssues report.summary.issuesCount,
        Report.filesTextIn format (wantsColors w.source.environment)
          [{ report with summary := { report.summary with generatedAt := time } }], [], none⟩ := by
  have hlater : analyzeFile { w with time } task path =
      .ok { report with summary := { report.summary with generatedAt := time } } := by
    rw [analyzeFile_at, hreport]
    rfl
  rw [h.runAlone_eq, value_askFiles, reportsOf]
  simp [faultOf?, complaintOn?, hlater, Except.toOption]

/-! ## The run for all files -/

theorem Prepared.output_eq (h : Prepared w o .pretty task) (times : String → String) :
    (runAnalyze w o).output =
      String.join (o.files.map (fun path => (runAlone w o (times path) path).output)) := by
  rw [h.runAnalyze_eq, value_askFiles]
  show String.join
    ((reportsOf w task o.files).map (Report.fileText (wantsColors w.source.environment))) = _
  generalize o.files = paths
  -- a file that fails prints nothing, in the run for all files and in its own
  induction paths with
  | nil => rfl
  | cons path paths ih =>
      rw [List.map_cons, String.join_cons, ← ih, reportsOf, List.filterMap_cons]
      cases hpath : analyzeFile w task path with
      | error fault =>
          rw [h.runAlone_of_error hpath]
          exact String.empty_append.symm
      | ok report =>
          rw [h.runAlone_of_ok hpath]
          show String.join (_ :: _) = String.join [_] ++ _
          rw [String.join_cons, String.join_cons, String.join_nil, String.append_empty]
          rfl

theorem Prepared.errors_eq (h : Prepared w o format task) (times : String → String) :
    (runAnalyze w o).errors =
      o.files.flatMap (fun path => (runAlone w o (times path) path).errors) := by
  rw [h.runAnalyze_eq, value_askFiles]
  generalize o.files = paths
  induction paths with
  | nil => rfl
  | cons path paths ih =>
      rw [List.flatMap_cons, ← ih, List.filterMap_cons]
      cases hpath : analyzeFile w task path with
      | error fault =>
          rw [h.runAlone_of_error hpath, faultOf?, hpath]
          rfl
      | ok report =>
          rw [h.runAlone_of_ok hpath, faultOf?, hpath]
          rfl

def SomeFails (w : World) (o : AnalyzeOptions) : Prop :=
  ∃ path ∈ o.files, ∃ fault, Fails w o path fault

def issuesOf (w : World) (task : FileTask) (paths : List String) : Nat :=
  Count.total ((reportsOf w task paths).map (·.summary.issuesCount))

theorem Prepared.faultOf?_eq_none_iff (h : Prepared w o format task) :
    faultOf? w task path = none ↔ ∀ fault, ¬Fails w o path fault := by
  unfold faultOf?
  cases hpath : analyzeFile w task path with
  | error fault =>
      have hfails := h.analyzeFile_eq_error_iff.1 hpath
      exact iff_of_false nofun (fun hnone => hnone fault hfails)
  | ok report =>
      refine iff_of_true rfl (fun fault hfails => ?_)
      rw [h.analyzeFile_eq_error_iff.2 hfails] at hpath
      cases hpath

theorem Prepared.code_of_someFails (h : Prepared w o format task) (hfails : SomeFails w o) :
    (runAnalyze w o).code = errorCode := by
  obtain ⟨path, hmem, fault, hfault⟩ := hfails
  have herrors : o.files.filterMap (faultOf? w task) ≠ [] := by
    intro hnone
    exact h.faultOf?_eq_none_iff.1 (List.filterMap_eq_nil_iff.1 hnone path hmem) fault hfault
  rw [h.runAnalyze_eq, value_askFiles]
  exact if_neg (fun hempty => herrors (List.isEmpty_iff.1 hempty))

theorem Prepared.code_of_not_someFails (h : Prepared w o format task) (hfails : ¬SomeFails w o) :
    (runAnalyze w o).code = codeFor o.failOnIssues (issuesOf w task o.files) := by
  have herrors : o.files.filterMap (faultOf? w task) = [] := by
    refine List.filterMap_eq_nil_iff.2 (fun path hmem => h.faultOf?_eq_none_iff.2 ?_)
    intro fault hfault
    exact hfails ⟨path, hmem, fault, hfault⟩
  rw [h.runAnalyze_eq, value_askFiles]
  exact if_pos (List.isEmpty_iff.2 herrors)

theorem Prepared.code_iff (h : Prepared w o format task) :
    ((runAnalyze w o).code = 2 ↔ SomeFails w o) ∧
      ((runAnalyze w o).code = 1 ↔
        ¬SomeFails w o ∧ o.failOnIssues = true ∧ 0 < issuesOf w task o.files) ∧
      ((runAnalyze w o).code = 0 ↔
        ¬SomeFails w o ∧ ¬(o.failOnIssues = true ∧ 0 < issuesOf w task o.files)) := by
  by_cases hfails : SomeFails w o
  · rw [h.code_of_someFails hfails]
    simp [hfails, errorCode]
  · rw [h.code_of_not_someFails hfails]
    by_cases hissues : o.failOnIssues = true ∧ 0 < issuesOf w task o.files
    · simp [hfails, hissues, codeFor, issuesCode]
    · have hcode : codeFor o.failOnIssues (issuesOf w task o.files) = successCode := by
        refine if_neg (fun hboth => hissues ?_)
        rwa [Bool.and_eq_true, decide_eq_true_eq] at hboth
      rw [hcode]
      simp [hfails, hissues, successCode]

/-! ## What is read and what is run -/

theorem Prepared.source_mem_iff (h : Prepared w o format task) :
    .read .source path ∈ (analyzeFiles w.host o).effects ↔ path ∈ o.files ∧ HasLanguage o path := by
  have hsetup := (setupOnly_prepareFiles w o).source_not_mem path
  have htold := h.language_eq_none_iff path
  rw [h.analyzeFiles_eq, effects_askFiles, List.mem_append, or_iff_right hsetup,
    List.mem_flatMap]
  constructor
  · rintro ⟨other, hmem, heffect⟩
    obtain ⟨rfl, hlanguage⟩ := source_mem_askFile_iff.1 heffect
    exact ⟨hmem, by_contra (fun hnot => hlanguage (htold.2 hnot))⟩
  · rintro ⟨hmem, hlanguage⟩
    exact ⟨path, hmem, source_mem_askFile_iff.2 ⟨rfl, fun hnone => htold.1 hnone hlanguage⟩⟩

theorem Prepared.run_mem_iff (h : Prepared w o format task) {program : String}
    {arguments : List String} :
    .run program arguments ∈ (analyzeFiles w.host o).effects ↔
      ∃ path ∈ o.files, LintedBy w task path program arguments := by
  have hsetup := (setupOnly_prepareFiles w o).run_not_mem program arguments
  rw [h.analyzeFiles_eq, effects_askFiles, List.mem_append, or_iff_right hsetup,
    List.mem_flatMap]
  exact exists_congr fun _ => and_congr_right fun _ => run_mem_askFile_iff

/-! ## What is shown -/

/-- What the run for one file shows of it: a complaint, or the report on its bytes, line by line,
and nothing else. -/
inductive Shown (w : World) (o : AnalyzeOptions) (format : OutputFormat) (task : FileTask)
    (path : String) (alone : Outcome) : Prop
  | failed {fault : FileFault} : Fails w o path fault →
      alone.errors = [complaint (fault.message path)] → (format = .pretty → alone.output = "") →
      Shown w o format task path alone
  | reported {language : Language} {bytes : List UInt8} : (∀ fault, ¬Fails w o path fault) →
      (task.forced <|> Language.ofPath? path.toList) = some language →
      w.source.read path = .ok bytes → bytes ≠ [] →
      analyzeFile w task path = .ok (reportAt w task language path bytes) → alone.errors = [] →
      (format = .pretty → alone.output =
        Report.printed (wantsColors w.source.environment)
          (reportAt w task language path bytes).entries) →
      Shown w o format task path alone

theorem exists_of_analyzeFile_eq_ok {report : FileReport}
    (h : analyzeFile w task path = .ok report) :
    ∃ language bytes, (task.forced <|> Language.ofPath? path.toList) = some language ∧
      w.source.read path = .ok bytes ∧ bytes ≠ [] ∧
      report = reportAt w task language path bytes := by
  cases htold : (task.forced <|> Language.ofPath? path.toList) with
  | none =>
      rw [analyzeFile_of_unknown htold] at h
      cases h
  | some language =>
      rw [analyzeFile_of_known htold] at h
      split at h
      · cases h
      · cases h
      · rename_i bytes hbytes hread
        exact ⟨language, bytes, rfl, hread, hbytes, (Except.ok.inj h).symm⟩

theorem Prepared.shown (h : Prepared w o format task) (time path : String) :
    Shown w o format task path (runAlone w o time path) := by
  cases hpath : analyzeFile w task path with
  | error fault =>
      rw [h.runAlone_of_error hpath]
      refine .failed (h.analyzeFile_eq_error_iff.1 hpath) rfl ?_
      intro hpretty
      subst hpretty
      rfl
  | ok report =>
      obtain ⟨language, bytes, htold, hread, hbytes, rfl⟩ := exists_of_analyzeFile_eq_ok hpath
      rw [h.runAlone_of_ok hpath]
      refine .reported ?_ htold hread hbytes hpath rfl ?_
      · intro fault hfails
        rw [h.analyzeFile_eq_error_iff.2 hfails] at hpath
        cases hpath
      · intro hpretty
        subst hpretty
        -- the stamp is the only part of a report that is not printed
        show String.join [Report.fileText _ _] = Report.printed _ _
        rw [String.join_cons, String.join_nil, String.append_empty, Report.fileText_eq_printed]
        rfl

/-- **Files are analyzed separately.**  A refusal is one complaint, the same in every world with
this setup; no file to be analyzed was read for it, and no tool was run.  Otherwise the run
complains of what the runs for each file complain of, in order; in the pretty format it prints what
they print; and its code is 2 if some file fails, else 1 if there are issues and those count, else
0.  The files read are those whose language is told, and the tool is run on those that are scripts.
The runs for each file may be at any time. -/
theorem files_analyzed_separately (w : World) (o : AnalyzeOptions) (times : String → String) :
    (Refused w o → ∃ text effects,
      (∀ w', SameSetup o w w' →
        analyzeFiles w'.host o = ⟨effects, 2, "", [complaint text], none⟩) ∧
      (∀ path, .read .source path ∉ effects) ∧
      (∀ program arguments, .run program arguments ∉ effects)) ∧
    (¬Refused w o → ∃ format task, Prepared w o format task ∧
      (∀ path, Shown w o format task path (runAlone w o (times path) path)) ∧
      (format = .pretty → (runAnalyze w o).output =
        String.join (o.files.map (fun path => (runAlone w o (times path) path).output))) ∧
      (runAnalyze w o).errors =
        o.files.flatMap (fun path => (runAlone w o (times path) path).errors) ∧
      ((runAnalyze w o).code = 2 ↔ SomeFails w o) ∧
      ((runAnalyze w o).code = 1 ↔
        ¬SomeFails w o ∧ o.failOnIssues = true ∧ 0 < issuesOf w task o.files) ∧
      ((runAnalyze w o).code = 0 ↔
        ¬SomeFails w o ∧ ¬(o.failOnIssues = true ∧ 0 < issuesOf w task o.files)) ∧
      (∀ path, .read .source path ∈ (analyzeFiles w.host o).effects ↔
        path ∈ o.files ∧ HasLanguage o path) ∧
      (∀ program arguments, .run program arguments ∈ (analyzeFiles w.host o).effects ↔
        ∃ path ∈ o.files, LintedBy w task path program arguments)) := by
  constructor
  · intro hrefused
    obtain ⟨text, htext⟩ := hrefused.prepareFiles_eq
    have hsetup := setupOnly_prepareFiles w o
    refine ⟨text, (prepareFiles w.host o).run.effects, fun w' hsame => ?_,
      hsetup.source_not_mem, hsetup.run_not_mem⟩
    rw [← hsame.prepareFiles_eq] at htext ⊢
    exact analyzeFiles_of_error htext
  · intro hrefused
    obtain ⟨format, task, h⟩ := prepared_of_not_refused hrefused
    obtain ⟨hfails, hissues, hsuccess⟩ := h.code_iff
    refine ⟨format, task, h, fun path => h.shown (times path) path, ?_, h.errors_eq times,
      hfails, hissues, hsuccess, fun _ => h.source_mem_iff, fun _ _ => h.run_mem_iff⟩
    intro hpretty
    subst hpretty
    exact h.output_eq times

/-- A world with one source file that has text and one that is empty, and without any tools. -/
def smallWorld : World where
  source :=
    { read := fun path =>
        if path = "a.rb" then .ok [120]
        else if path = "b.rb" then .ok []
        else .error .missing
      has := fun _ => false
      ofUser := none
      environment := fun _ => none }
  runTool := fun _ _ _ => none
  versionControl := none
  time := "2024-01-01T00:00:00Z"

def fourFiles : AnalyzeOptions where
  files := ["b.rb", "a.rb", "notes.txt", "c.rb"]
  language := none
  format := "pretty"
  html := none
  settings := none
  failOnIssues := true

/-- The small world with a script in it, and settings that name a lint tool. -/
def scriptWorld : World where
  source :=
    { smallWorld.source with
      read := fun path =>
        if path = "d.js" then .ok (Text.utf8Bytes "f();\n")
        else if path = "s.yaml" then .ok (Text.utf8Bytes "lint:\n  command: [eslint, --stdin]\n")
        else smallWorld.source.read path }
  runTool := smallWorld.runTool
  versionControl := none
  time := smallWorld.time

/-- A script that is to be linted, and a document for style sheets that is not there. -/
def scriptAndPage : AnalyzeOptions where
  files := ["d.js"]
  language := none
  format := "pretty"
  html := some "page.html"
  settings := some "s.yaml"
  failOnIssues := false

theorem fourFiles_analyzed_separately :
    ¬Refused smallWorld fourFiles ∧ SomeFails smallWorld fourFiles ∧
      (runAnalyze smallWorld fourFiles).code = 2 ∧
      (runAnalyze smallWorld fourFiles).errors =
        ["Error: b.rb is empty", "Error: cannot determine the language of notes.txt; pass --lang",
          "Error: cannot read c.rb: No such file or directory (os error 2)"] ∧
      (∀ times : String → String, (runAnalyze smallWorld fourFiles).output =
        String.join (fourFiles.files.map
          (fun path => (runAlone smallWorld fourFiles (times path) path).output))) ∧
      (runAnalyze smallWorld fourFiles).output =
        "\n  code-analyzer v0.1.0\n\n  File:     a.rb\n  Language: Ruby\n\n  ✓ No issues\n\n" ++
        "    INFO Basic statistics  generic-overview\n         Ruby file\n" ++
        "         - Total lines: 1\n         - Functions detected: 0\n" ++
        "         - Comment lines (heuristic): 0\n\n" ++
        "    INFO Notes  generic-info\n" ++
        "         - No functions detected (simple heuristic).\n" ++
        "         - No comments found.\n\n" ++
        "    OK   Basic analysis complete  generic-success\n" ++
        "         - Experimental support - limited metrics.\n\n" ∧
      (∀ path, .read .source path ∈ (analyzeFiles smallWorld.host fourFiles).effects ↔
        path ∈ fourFiles.files ∧ HasLanguage fourFiles path) ∧
      .run "eslint" ["--stdin", "d.js"] ∈
        (analyzeFiles scriptWorld.host { scriptAndPage with html := none }).effects ∧
      Refused scriptWorld scriptAndPage ∧
      ∃ text effects,
        analyzeFiles scriptWorld.host scriptAndPage = ⟨effects, 2, "", [complaint text], none⟩ ∧
        (∀ path, .read .source path ∉ effects) ∧
        ∀ program arguments, .run program arguments ∉ effects := by
  have hprepared :
      (prepareFiles smallWorld.host fourFiles).run.value = .ok (.pretty, ⟨none, none, none⟩) := by
    rfl
  have hnot := (prepareFiles_eq_ok_iff.1 hprepared).not_refused
  have hfails : SomeFails smallWorld fourFiles :=
    ⟨"b.rb", by decide, .empty, .empty (.inr (by decide)) rfl⟩
  have hformat : OutputFormat.ofName? fourFiles.format = some .pretty := rfl
  have hrefused : Refused scriptWorld scriptAndPage := .unreadable rfl rfl
  obtain ⟨_, _, -, -, -, -, hcode, -, -, hread, -⟩ :=
    (files_analyzed_separately smallWorld fourFiles id).2 hnot
  obtain ⟨text, effects, hall, hsource, hrun⟩ :=
    (files_analyzed_separately scriptWorld scriptAndPage id).1 hrefused
  refine ⟨hnot, hfails, hcode.2 hfails, by decide +kernel, ?_, by decide +kernel, hread,
    by decide +kernel, hrefused, text, effects, hall scriptWorld ⟨rfl, rfl, fun _ _ => rfl⟩,
    hsource, hrun⟩
  intro times
  obtain ⟨_, _, h, -, houtput, -⟩ :=
    (files_analyzed_separately smallWorld fourFiles times).2 hnot
  refine houtput ?_
  rw [h.named] at hformat
  exact Option.some.inj hformat

end CodeSurvey.CommandLine
