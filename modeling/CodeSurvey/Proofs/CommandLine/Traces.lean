/-
# What a command does in a world

A command is written against a host, and a `World` is a host whose answers are known.  So each
question that a command asks comes to a value and a list of effects which can be told from the world
alone, and this module tells them, one question at a time: the settings (`loadSettings_host`), the
document for style sheets (`effects_askDocument`), a lint tool (`lintBy_host`), a file
(`askFile_of_known`).

The files of a command are of three uses.  What is asked before the first of them is analyzed reads
settings and a document and nothing else (`SetupOnly`), so that a command line that is refused has
opened no source and run no tool.  What is asked for one of them reads that file, if its language is
told, and runs at most the lint tool.
-/
import CodeSurvey.CommandLine.Run

namespace CodeSurvey.CommandLine

variable {w : World} {task : FileTask} {path : String}

/-! ## Settings -/

/-- The settings file that counts, by its path and its bytes. -/
def FileSource.find (s : FileSource) (named : Option String) :
    Option (String × Except FileError (List UInt8)) :=
  match named with
  | some path => some (path, s.read path)
  | none =>
    match settingsNames.find? s.has with
    | some path => some (path, s.read path)
    | none => s.ofUser

end CodeSurvey.CommandLine

namespace CodeSurvey

open CommandLine

def Settings.load (source : FileSource) (named : Option String) : Except LoadError Settings :=
  Settings.ofFound source.environment (source.find named)

end CodeSurvey

namespace CodeSurvey.CommandLine

variable {w : World} {task : FileTask} {path : String}

theorem findSettings_host (w : World) (named : Option String) :
    findSettings w.host named =
      ⟨(w.source.find named).toList.map (fun found => .read .settings found.1),
        w.source.find named⟩ := by
  cases named with
  | some path => rfl
  | none =>
      have hfind : settingsNames.findM? w.host.has = pure (settingsNames.find? w.source.has) :=
        List.findM?_pure w.source.has settingsNames
      rw [findSettings, hfind, pure_bind, FileSource.find]
      cases settingsNames.find? w.source.has with
      | some path => rfl
      | none => rfl

theorem loadSettings_host (w : World) (named : Option String) :
    loadSettings w.host named =
      ⟨(w.source.find named).toList.map (fun found => .read .settings found.1),
        Settings.load w.source named⟩ := by
  rw [loadSettings, findSettings_host]
  exact Traced.ext (by simp [World.host]) rfl

/-! ## Before the files -/

/-- Effects that settle a command line: settings and a document are read, and nothing else is. -/
def SetupOnly (effects : List HostEffect) : Prop :=
  ∀ effect ∈ effects, ∃ path, effect = .read .settings path ∨ effect = .read .document path

theorem SetupOnly.nil : SetupOnly [] := by
  simp [SetupOnly]

theorem SetupOnly.append {effects effects' : List HostEffect} (h : SetupOnly effects)
    (h' : SetupOnly effects') : SetupOnly (effects ++ effects') := by
  intro effect hmem
  exact (List.mem_append.1 hmem).elim (h effect) (h' effect)

theorem SetupOnly.source_not_mem {effects : List HostEffect} (h : SetupOnly effects)
    (path : String) : .read .source path ∉ effects := by
  intro hmem
  obtain ⟨_, heffect | heffect⟩ := h _ hmem
  · cases heffect
  · cases heffect

theorem SetupOnly.run_not_mem {effects : List HostEffect} (h : SetupOnly effects)
    (program : String) (arguments : List String) : .run program arguments ∉ effects := by
  intro hmem
  obtain ⟨_, heffect | heffect⟩ := h _ hmem
  · cases heffect
  · cases heffect

theorem setupOnly_askSettings (w : World) (named : Option String) :
    SetupOnly (askSettings w.host named).effects := by
  have heffects : (askSettings w.host named).effects =
      (w.source.find named).toList.map (fun found => .read .settings found.1) := by
    simp [askSettings, loadSettings_host]
  intro effect hmem
  rw [heffects, List.mem_map] at hmem
  obtain ⟨found, -, rfl⟩ := hmem
  exact ⟨found.1, .inl rfl⟩

theorem effects_askDocument (w : World) (named : Option String) :
    (askDocument w.host named).effects = named.toList.map (.read .document ·) := by
  cases named with
  | none => rfl
  | some path =>
      simp only [askDocument, Traced.effects_bind]
      split
      · rfl
      · rfl

theorem setupOnly_askDocument (w : World) (named : Option String) :
    SetupOnly (askDocument w.host named).effects := by
  intro effect hmem
  rw [effects_askDocument, List.mem_map] at hmem
  obtain ⟨path, -, rfl⟩ := hmem
  exact ⟨path, .inr rfl⟩

section Steps

variable {ε α β : Type} {x : ExceptT ε Traced α} {f : α → ExceptT ε Traced β}

theorem value_bind_of_ok {a : α} (h : x.run.value = .ok a) :
    (x >>= f).run.value = (f a).run.value := by
  show (ExceptT.bindCont f x.run.value).value = _
  rw [h]
  rfl

theorem exists_of_value_bind_eq_ok {b : β} (h : (x >>= f).run.value = .ok b) :
    ∃ a, x.run.value = .ok a ∧ (f a).run.value = .ok b := by
  cases hx : x.run.value with
  | ok a => exact ⟨a, rfl, by rwa [value_bind_of_ok hx] at h⟩
  | error e =>
      have hbind : (x >>= f).run.value = (ExceptT.bindCont f x.run.value).value := rfl
      rw [hbind, hx] at h
      cases h

theorem setupOnly_bind (hx : SetupOnly x.run.effects) (hf : ∀ a, SetupOnly (f a).run.effects) :
    SetupOnly (x >>= f).run.effects := by
  show SetupOnly (x.run.effects ++ (ExceptT.bindCont f x.run.value).effects)
  refine hx.append ?_
  cases x.run.value with
  | ok a => exact hf a
  | error e => exact .nil

end Steps

theorem setupOnly_prepareFiles (w : World) (o : AnalyzeOptions) :
    SetupOnly (prepareFiles w.host o).run.effects := by
  refine setupOnly_bind .nil (fun format => ?_)
  split
  · exact .nil
  · refine setupOnly_bind .nil (fun forced => ?_)
    refine setupOnly_bind (setupOnly_askSettings w o.settings) (fun settings => ?_)
    refine setupOnly_bind (setupOnly_askDocument w o.html) (fun html => ?_)
    exact .nil

/-! ## One file -/

theorem lintBy_host_cons (w : World) (program : String) (arguments : List String)
    (source path : String) :
    lintBy w.host.runTool (program :: arguments) source path =
      ⟨[.run program (arguments ++ [path])],
        lintWith w.runTool (program :: arguments) source path⟩ := by
  simp only [lintBy, lintWith, World.host]
  cases w.runTool program (arguments ++ [path]) (Text.utf8Bytes source) with
  | none => rfl
  | some outcome => rfl

/-- The findings in a source, with those of a lint tool if it is a script and there is a tool. -/
def findingsIn (w : World) (task : FileTask) (language : Language) (path source : String) :
    Findings :=
  match plainFindings task language source, task.lint with
  | .javaScript f, some command =>
    match lintWith w.runTool command source path with
    | .ok problems => .javaScript (f.withLintProblems problems)
    | .error _ => .javaScript f
  | findings, _ => findings

/-- What a lint tool is asked about a source. -/
def lintRuns (task : FileTask) (language : Language) (path : String) : List HostEffect :=
  match language, task.lint with
  | .javaScript, some (program :: arguments) => [.run program (arguments ++ [path])]
  | _, _ => []

theorem exists_javaScript_iff {language : Language} {source : String} :
    (∃ f, plainFindings task language source = .javaScript f) ↔ language = .javaScript := by
  cases language <;> cases h : task.html <;> simp [plainFindings, analyze, h]

theorem withLint_host (w : World) (task : FileTask) (language : Language) (source path : String) :
    withLint w.host task.lint source path (plainFindings task language source) =
      ⟨lintRuns task language path, findingsIn w task language path source⟩ := by
  have hscript : (∃ f, plainFindings task language source = .javaScript f) ↔
      language = .javaScript := exists_javaScript_iff
  unfold withLint findingsIn lintRuns
  generalize plainFindings task language source = findings at hscript
  by_cases hlanguage : language = .javaScript
  · obtain ⟨f, rfl⟩ := hscript.2 hlanguage
    subst hlanguage
    cases task.lint with
    | none => rfl
    | some command =>
        cases command with
        | nil => rfl
        | cons program arguments =>
            simp only [lintBy_host_cons]
            cases lintWith w.runTool (program :: arguments) source path with
            | ok problems => rfl
            | error e => rfl
  · cases findings with
    | javaScript f => exact absurd (hscript.1 ⟨f, rfl⟩) hlanguage
    | python f | html f | css f | overview f => cases language <;> first | rfl | contradiction

def reportAt (w : World) (task : FileTask) (language : Language) (path : String)
    (bytes : List UInt8) : FileReport :=
  let findings := findingsIn w task language path (Text.decodeUtf8Lossy bytes)
  ⟨language, some path, findings, (summarize findings).stamped w.time⟩

theorem askFile_of_unknown (w : World)
    (h : (task.forced <|> Language.ofPath? path.toList) = none) :
    askFile w.host task path = ⟨[], .error .unknownLanguage⟩ := by
  rw [askFile, h]
  rfl

theorem askFile_of_known (w : World) {language : Language}
    (h : (task.forced <|> Language.ofPath? path.toList) = some language) :
    askFile w.host task path =
      match w.source.read path with
      | .error e => ⟨[.read .source path], .error (.unreadable e)⟩
      | .ok [] => ⟨[.read .source path], .error .empty⟩
      | .ok bytes =>
        ⟨.read .source path :: lintRuns task language path,
          .ok (reportAt w task language path bytes)⟩ := by
  have hread : w.host.read .source path = ⟨[.read .source path], w.source.read path⟩ := rfl
  have htime : w.host.time = pure w.time := rfl
  rw [askFile, h]
  simp only [hread, htime, withLint_host]
  cases w.source.read path with
  | error e => rfl
  | ok bytes =>
      cases bytes with
      | nil => rfl
      | cons byte bytes =>
          refine Traced.ext ?_ rfl
          simp

/-- What the analysis of one file comes to. -/
def analyzeFile (w : World) (task : FileTask) (path : String) : Except FileFault FileReport :=
  (askFile w.host task path).value

/-- A lint tool is run on a script that has something in it, and told its path. -/
structure LintedBy (w : World) (task : FileTask) (path program : String)
    (arguments : List String) : Prop where
  script : (task.forced <|> Language.ofPath? path.toList) = some .javaScript
  bytes : ∃ bytes, w.source.read path = .ok bytes ∧ bytes ≠ []
  command : ∃ rest, task.lint = some (program :: rest) ∧ arguments = rest ++ [path]

theorem source_not_mem_lintRuns (task : FileTask) (language : Language) (path other : String) :
    .read .source other ∉ lintRuns task language path := by
  unfold lintRuns
  split <;> simp

theorem run_mem_lintRuns_iff {language : Language} {program : String} {arguments : List String} :
    .run program arguments ∈ lintRuns task language path ↔
      language = .javaScript ∧ ∃ rest, task.lint = some (program :: rest) ∧
        arguments = rest ++ [path] := by
  unfold lintRuns
  split
  · rename_i first rest hlint
    simp only [hlint, List.mem_singleton, HostEffect.run.injEq, true_and, Option.some.injEq,
      List.cons.injEq]
    constructor
    · rintro ⟨rfl, rfl⟩
      exact ⟨rest, ⟨rfl, rfl⟩, rfl⟩
    · rintro ⟨_, ⟨rfl, rfl⟩, rfl⟩
      exact ⟨rfl, rfl⟩
  · rename_i hother
    refine iff_of_false List.not_mem_nil ?_
    rintro ⟨rfl, rest, hlint, -⟩
    exact hother program rest rfl hlint

theorem source_mem_askFile_iff {other : String} :
    .read .source other ∈ (askFile w.host task path).effects ↔
      other = path ∧ (task.forced <|> Language.ofPath? path.toList) ≠ none := by
  cases htold : (task.forced <|> Language.ofPath? path.toList) with
  | none => simp [askFile_of_unknown w htold]
  | some language =>
      have hnot := source_not_mem_lintRuns task language path other
      rw [askFile_of_known w htold]
      split <;> simp [hnot]

theorem run_mem_askFile_iff {program : String} {arguments : List String} :
    .run program arguments ∈ (askFile w.host task path).effects ↔
      LintedBy w task path program arguments := by
  constructor
  · intro hmem
    cases htold : (task.forced <|> Language.ofPath? path.toList) with
    | none => simp [askFile_of_unknown w htold] at hmem
    | some language =>
        rw [askFile_of_known w htold] at hmem
        split at hmem
        · simp at hmem
        · simp at hmem
        · rename_i bytes hbytes hread
          obtain ⟨rfl, hcommand⟩ := run_mem_lintRuns_iff.1 (by simpa using hmem)
          exact ⟨htold, ⟨bytes, hread, hbytes⟩, hcommand⟩
  · intro h
    obtain ⟨bytes, hread, hbytes⟩ := h.bytes
    have hruns := run_mem_lintRuns_iff.2 ⟨rfl, h.command⟩
    rw [askFile_of_known w h.script, hread]
    cases bytes with
    | nil => exact absurd rfl hbytes
    | cons byte bytes => exact List.mem_cons_of_mem _ hruns

theorem effects_askFiles (w : World) (task : FileTask) (format : OutputFormat)
    (failOnIssues : Bool) (paths : List String) :
    (askFiles w.host task format failOnIssues paths).effects =
      paths.flatMap (fun path => (askFile w.host task path).effects) := by
  have henvironment (analyzed : List (String × Except FileFault FileReport)) :
      (do return outcomeOf format (wantsColors (← w.host.environment)) failOnIssues analyzed :
        Traced Outcome).effects = [] := rfl
  rw [askFiles, Traced.effects_bind, henvironment, List.append_nil, Traced.effects_mapM]
  exact congrArg (List.flatMap · paths) (funext fun path => List.append_nil _)

end CodeSurvey.CommandLine
