/-
# JavaScript findings stand on their lines

Names and numbers are looked for in masked lines.  What they are made of is no space, so they stand
in the line itself (`CodeLine.Of.onLine_groupText`).  A name that is declared more than once takes
the later line as it is, and so stands on it (`mem_of_mem_merge`).

A mask writes spaces over what it hides and leaves everything else in place.  So a stretch of the
masked line that has no space in it is a stretch of the line, at the same columns.  Whether a group
of a pattern can hold a space is read off the pattern (`GroupOver`), once for each pattern that a
finding is cut from, and a comment on work to do is cut from the line itself.
-/
import CodeSurvey.Proofs.Masking
import CodeSurvey.Proofs.Pattern.Spans
import CodeSurvey.Proofs.Text.Pieces
import CodeSurvey.Scan.JavaScript

namespace CodeSurvey

open Text

/-- Every line number is that of a line, and names, numbers and reminders stand on theirs.  The
problems of a lint run are not looked at. -/
structure JavaScriptFindings.Located (lines : List Line) (r : JavaScriptFindings) : Prop where
  declaredFunctions : ∀ l ∈ r.declaredFunctions, OnLine lines l.line l.name.toList
  unusedFunctions : ∀ l ∈ r.unusedFunctions, OnLine lines l.line l.name.toList
  declaredVariables : ∀ l ∈ r.declaredVariables, OnLine lines l.line l.name.toList
  unusedVariables : ∀ l ∈ r.unusedVariables, OnLine lines l.line l.name.toList
  varUsage : ∀ n ∈ r.varUsage, IsLine lines n
  letUsage : ∀ n ∈ r.letUsage, IsLine lines n
  constUsage : ∀ n ∈ r.constUsage, IsLine lines n
  evalUsage : ∀ n ∈ r.evalUsage, IsLine lines n
  documentWriteUsage : ∀ n ∈ r.documentWriteUsage, IsLine lines n
  todoComments : ∀ t ∈ r.todoComments, OnLine lines t.line t.comment.toList
  longLines : ∀ n ∈ r.longLines, IsLine lines n
  magicNumbers : ∀ n ∈ r.magicNumbers, OnLine lines n.line n.value.toList
  semicolonMissing : ∀ n ∈ r.semicolonMissing, IsLine lines n
  arrowFunctions : ∀ l ∈ r.arrowFunctions, OnLine lines l.line l.name.toList
  anonymousFunctions : ∀ l ∈ r.anonymousFunctions, OnLine lines l.line l.name.toList
  doubleEquals : ∀ n ∈ r.doubleEquals, IsLine lines n
  tripleEquals : ∀ n ∈ r.tripleEquals, IsLine lines n
  consoleLogUsage : ∀ n ∈ r.consoleLogUsage, IsLine lines n

namespace JavaScript

open Pattern Masking

/-! ## Masked lines -/

/-- A masked line of a source: its number is that of its text. -/
structure CodeLine.Of (lines : List Line) (l : CodeLine) : Prop where
  lineAt : LineAt lines l.number l.text
  masked : IsMasked l.code l.text

theorem of_mem_pairLines {lines texts codes : List Line} {number : Nat}
    (htexts : LinesFrom lines number texts) (h : List.Forall₂ IsMasked codes texts) :
    ∀ l ∈ pairLines number texts codes, l.Of lines := by
  induction h generalizing number with
  | nil => exact fun _ hl => absurd hl List.not_mem_nil
  | cons hmasked _ ih => exact List.forall_mem_cons.2 ⟨⟨htexts.lineAt, hmasked⟩, ih htexts.next⟩

theorem of_mem_codeLines (lines : List Line) : ∀ l ∈ codeLines lines, l.Of lines :=
  of_mem_pairLines (.first lines) (isMasked_maskLinesFrom .slashes false lines)

/-! ## What patterns take for a name or a number -/

theorem groupOver_functionPattern : functionPattern.GroupOver 1 (· ≠ ' ') :=
  List.forall_mem_singleton.2 over_identifier

theorem groupOver_arrowPattern : arrowPattern.GroupOver 1 (· ≠ ' ') :=
  List.forall_mem_singleton.2 over_identifier

theorem groupOver_anonymousPattern : anonymousPattern.GroupOver 1 (· ≠ ' ') :=
  List.forall_mem_singleton.2 over_identifier

theorem groupOver_variablePattern : variablePattern.GroupOver 1 (· ≠ ' ') :=
  List.forall_mem_singleton.2 over_identifier

theorem over_numberLiteral : numberLiteral.Over (· ≠ ' ') := by
  have hdigits : (some1 isDecimalDigit).Over (· ≠ ' ') := by
    constructor
    all_goals
      rintro c hc rfl
      exact absurd hc (by decide)
  have hchar : ∀ c, c ≠ ' ' → (char c).Over (· ≠ ' ') := by
    intro c hc d hd
    rwa [eq_of_beq hd]
  exact ⟨⟨⟨hchar '-' (by decide), trivial⟩, hdigits⟩, ⟨hchar '.' (by decide), hdigits⟩, trivial⟩

theorem groupOver_numberPattern : numberPattern.GroupOver 1 (· ≠ ' ') :=
  List.forall_mem_singleton.2 over_numberLiteral

/-! ## What a line shows -/

namespace CodeLine

variable {lines : List Line} {l : CodeLine} {pattern : Pattern}

theorem Of.onLine_groupText (hl : l.Of lines) (hP : pattern.GroupOver 1 (· ≠ ' ')) {m : Match}
    (hm : IsMatch pattern l.code m) : OnLine lines l.number (m.groupText 1) :=
  hl.lineAt.onLine (hl.masked.isInfix (hm.groupText_isInfix 1) (hm.forall_groupText hP))

theorem Of.onLine_names (hl : l.Of lines) (hP : pattern.GroupOver 1 (· ≠ ' ')) {name : String}
    (h : name ∈ l.names pattern) : OnLine lines l.number name.toList := by
  obtain ⟨m, hm, rfl⟩ := List.mem_map.1 h
  rw [String.toList_ofList]
  exact hl.onLine_groupText hP (isMatch_of_mem_findAll hm)

theorem Of.onLine_locate (hl : l.Of lines) (hP : pattern.GroupOver 1 (· ≠ ' '))
    {d : NamedLocation} (h : d ∈ l.locate (l.names pattern)) :
    OnLine lines d.line d.name.toList := by
  obtain ⟨name, hname, rfl⟩ := List.mem_map.1 h
  exact hl.onLine_names hP hname

theorem Of.onLine_firstName? (hl : l.Of lines) (hP : pattern.GroupOver 1 (· ≠ ' '))
    {d : NamedLocation} (h : l.firstName? pattern = some d) :
    OnLine lines d.line d.name.toList := by
  obtain ⟨m, hm, rfl⟩ := Option.map_eq_some_iff.1 h
  rw [String.toList_ofList]
  exact hl.onLine_groupText hP (isMatch_of_find? hm)

theorem Of.onLine_functions (hl : l.Of lines) {d : NamedLocation} (h : d ∈ l.functions) :
    OnLine lines d.line d.name.toList := by
  rcases List.mem_append.1 h with h | hanonymous
  · rcases List.mem_append.1 h with hnamed | harrow
    · exact hl.onLine_locate groupOver_functionPattern hnamed
    · exact hl.onLine_firstName? groupOver_arrowPattern (Option.mem_toList.1 harrow)
  · exact hl.onLine_firstName? groupOver_anonymousPattern (Option.mem_toList.1 hanonymous)

theorem Of.onLine_magicNumbers (hl : l.Of lines) {n : NumberLiteral} (h : n ∈ l.magicNumbers) :
    OnLine lines n.line n.value.toList := by
  obtain ⟨value, hvalue, rfl⟩ := List.mem_map.1 h
  exact hl.onLine_names groupOver_numberPattern (List.mem_filter.1 hvalue).1

theorem Of.onLine_todo? (hl : l.Of lines) {t : TodoComment} (h : l.todo? = some t) :
    OnLine lines t.line t.comment.toList := by
  unfold todo? at h
  split at h
  · rw [← Option.some.inj h, String.toList_ofList]
    exact hl.lineAt.onLine (trim_isInfix l.text)
  · cases h

end CodeLine

/-! ## Merged declarations -/

/-- Noting a declaration adds it or moves its name to its line, so nothing else comes in. -/
theorem mem_of_mem_noteDeclaration {entries : List NamedLocation} {d e : NamedLocation}
    (h : e ∈ noteDeclaration entries d) : e ∈ entries ∨ e = d := by
  unfold noteDeclaration at h
  split at h
  · obtain ⟨entry, hentry, rfl⟩ := List.mem_map.1 h
    split
    · rename_i hname
      exact .inr (by rw [eq_of_beq hname])
    · exact .inl hentry
  · exact (List.mem_append.1 h).imp_right List.mem_singleton.1

theorem mem_of_mem_merge {declarations : List NamedLocation} :
    ∀ e ∈ merge declarations, e ∈ declarations := by
  refine List.foldlRecOn (motive := fun entries => ∀ e ∈ entries, e ∈ declarations) declarations
    noteDeclaration (fun _ h => absurd h List.not_mem_nil) (fun entries h d hd e he => ?_)
  rcases mem_of_mem_noteDeclaration he with he | rfl
  · exact h e he
  · exact hd

/-! ## All findings -/

theorem isLine_of_mem_linesWhere {lines : List Line} {ls : List CodeLine}
    (hls : ∀ l ∈ ls, l.Of lines) {rule : CodeLine → Bool} : ∀ n ∈ linesWhere rule ls,
      IsLine lines n := by
  intro n hn
  obtain ⟨l, hl, rfl⟩ := List.mem_map.1 hn
  exact (hls l (List.mem_filter.1 hl).1).lineAt.isLine

/-- **JavaScript findings stand on their lines.** -/
theorem located_analyzeLines (lines : List Line) : (analyzeLines lines).Located lines := by
  have hls := of_mem_codeLines lines
  have hfunctions : ∀ d ∈ merge ((codeLines lines).flatMap CodeLine.functions),
      OnLine lines d.line d.name.toList := by
    intro d hd
    obtain ⟨l, hl, hfound⟩ := List.mem_flatMap.1 (mem_of_mem_merge d hd)
    exact (hls l hl).onLine_functions hfound
  have hvariables : ∀ d ∈ merge ((codeLines lines).flatMap CodeLine.variablesIn),
      OnLine lines d.line d.name.toList := by
    intro d hd
    obtain ⟨l, hl, hfound⟩ := List.mem_flatMap.1 (mem_of_mem_merge d hd)
    exact (hls l hl).onLine_locate groupOver_variablePattern hfound
  have hwhere : ∀ rule : CodeLine → Bool, ∀ n ∈ linesWhere rule (codeLines lines),
      IsLine lines n := fun rule => isLine_of_mem_linesWhere hls
  constructor
  case declaredFunctions => exact hfunctions
  case unusedFunctions => exact fun d hd => hfunctions d (List.mem_filter.1 hd).1
  case declaredVariables => exact hvariables
  case unusedVariables => exact fun d hd => hvariables d (List.mem_filter.1 hd).1
  case todoComments =>
    intro t ht
    obtain ⟨l, hl, hfound⟩ := List.mem_filterMap.1 ht
    exact (hls l hl).onLine_todo? hfound
  case magicNumbers =>
    intro n hn
    obtain ⟨l, hl, hfound⟩ := List.mem_flatMap.1 hn
    exact (hls l hl).onLine_magicNumbers hfound
  case arrowFunctions =>
    intro d hd
    obtain ⟨l, hl, hfound⟩ := List.mem_filterMap.1 hd
    exact (hls l hl).onLine_firstName? groupOver_arrowPattern hfound
  case anonymousFunctions =>
    intro d hd
    obtain ⟨l, hl, hfound⟩ := List.mem_filterMap.1 hd
    exact (hls l hl).onLine_firstName? groupOver_anonymousPattern hfound
  -- The other findings are the numbers of the lines that a rule holds of.
  all_goals exact hwhere _

end JavaScript

end CodeSurvey
