/-
# Template literals over several lines

A template literal may be written over lines.  The mask carries no string from a line to the next:
behind the line on which such a literal opens, the source is analyzed as one of its own.  So the
further lines of the literal are read as code, and where its closing mark is met in code, it opens a
string, which hides what stands behind.

What is meant is that the further lines are hidden up to the closing mark, and that behind it there
is code (`TemplateLiteral.meantLines`).  That comes out if and only if the text of the literal shows
nothing when it is read as code, and what stands behind shows the same within a string as in code
(`TemplateLiteral.ReadAlike`).  Then there is no code behind, for of two readings that swap code and
string neither can show any (`shown_of_opposed`).
-/
import CodeSurvey.Proofs.JavaScript.Composition
import CodeSurvey.Proofs.Masking.Literals

namespace CodeSurvey.JavaScript

open Text Masking

/-! ## Literals over lines -/

def templateMark : Char := '\x60'

/-- A line of the text of a literal; a backslash may be its last character. -/
structure LiteralLine where
  body : List Piece
  continued : Bool
  free : ∀ p ∈ body, p.Free [templateMark]
deriving DecidableEq, Repr

def LiteralLine.text (l : LiteralLine) : Line :=
  bodyText l.body ++ if l.continued then ['\\'] else []

/-- A template literal over two lines or more. -/
structure TemplateLiteral where
  first : LiteralLine
  middle : List LiteralLine
  last : List Piece
  free : ∀ p ∈ last, p.Free [templateMark]
deriving DecidableEq, Repr

namespace TemplateLiteral

def firstLine (l : TemplateLiteral) (front : Line) : Line := front ++ templateMark :: l.first.text

/-- The lines on which a literal goes on and ends, in front of what stands behind it. -/
def furtherLines (l : TemplateLiteral) (behind : Line) : List Line :=
  l.middle.map LiteralLine.text ++ [bodyText l.last ++ templateMark :: behind]

/-- What the further lines are meant to show: the text is hidden, and behind it there is code. -/
def meantLines (l : TemplateLiteral) (behind : Line) : List Line :=
  l.middle.map (fun line => blanksOf line.text) ++
    [blanksOf (bodyText l.last) ++
      templateMark :: (run .slashes (.code (some templateMark)) behind).1]

end TemplateLiteral

/-! ## Two readings -/

/-- A space for a blank. -/
def veil (c : Char) : Char := if isBlank c then ' ' else c

def spaced (line : Line) : Line := line.map veil

theorem veil_eq_space_iff {c : Char} : veil c = ' ' ↔ isBlank c = true := by
  rw [veil]
  split
  · rename_i hc
    exact iff_of_true rfl hc
  · rename_i hc
    refine iff_of_false ?_ hc
    rintro rfl
    exact hc (by decide)

theorem veil_eq_templateMark_iff {c : Char} : veil c = templateMark ↔ c = templateMark := by
  rw [veil]
  split
  · rename_i hc
    refine iff_of_false (by decide) ?_
    rintro rfl
    exact absurd hc (by decide)
  · exact Iff.rfl

@[simp] theorem spaced_append (front back : Line) :
    spaced (front ++ back) = spaced front ++ spaced back :=
  List.map_append

@[simp] theorem length_spaced (line : Line) : (spaced line).length = line.length :=
  List.length_map _

@[simp] theorem spaced_blanksOf (text : Line) : spaced (blanksOf text) = blanksOf text :=
  List.map_replicate

theorem spaced_eq_blanksOf_iff {line text : Line} (h : line.length = text.length) :
    spaced line = blanksOf text ↔ isBlankText line = true := by
  induction line generalizing text with
  | nil =>
      obtain rfl := List.length_eq_zero_iff.1 h.symm
      exact iff_of_true rfl rfl
  | cons c line ih =>
      cases text with
      | nil => cases h
      | cons d text =>
          have hcons : spaced (c :: line) = veil c :: spaced line := rfl
          have hblank : isBlankText (c :: line) = (isBlank c && isBlankText line) := rfl
          rw [hcons, blanksOf_cons, List.cons.injEq, ih (Nat.succ.inj h), hblank, Bool.and_eq_true,
            veil_eq_space_iff]

/-- A reading within a literal, and one that is outside. -/
inductive Opposed : Mode → Mode → Prop
  | inside {escaped : Bool} {mode : Mode} :
      mode.Quiet → Opposed (.string templateMark escaped) mode
  | outside {escaped : Bool} {mode : Mode} :
      mode.Quiet → Opposed mode (.string templateMark escaped)

theorem isQuote_templateMark : isQuote .slashes templateMark = true := by decide

theorem step_templateMark (prev next : Option Char) :
    step .slashes (.code prev) templateMark next = (.string templateMark false, templateMark) :=
  stepCode_quote isQuote_templateMark prev next

theorem step_of_shown_templateMark {mode : Mode} (h : mode.Quiet) {next : Option Char}
    (hshown : (step .slashes mode templateMark next).2 = templateMark) :
    ∃ prev, mode = .code prev ∧
      step .slashes mode templateMark next = (.string templateMark false, templateMark) := by
  have hspace : ' ' ≠ templateMark := by decide
  cases mode with
  | code prev => exact ⟨prev, rfl, step_templateMark prev next⟩
  | block prev => exact absurd ((stepBlock_shown prev _ next).symm.trans hshown) hspace
  | lineComment | blockOpening prev | blockClosing prev => exact absurd hshown hspace
  | string closer escaped | regex inClass escaped => cases h

theorem step_literal (escaped : Bool) (c : Char) (next : Option Char) :
    (∃ escaped', step .slashes (.string templateMark escaped) c next =
        (.string templateMark escaped', ' ')) ∨
      c = templateMark ∧ step .slashes (.string templateMark escaped) c next =
        (.code (some templateMark), templateMark) := by
  cases escaped with
  | true => exact .inl ⟨false, rfl⟩
  | false =>
      rcases eq_or_ne c '\\' with rfl | hbackslash
      · exact .inl ⟨true, rfl⟩
      · rcases eq_or_ne c templateMark with rfl | hmark
        · exact .inr ⟨rfl, rfl⟩
        · exact .inl ⟨false, (hides_string templateMark).plain c next hbackslash
            (fun hmem => hmark (List.mem_singleton.1 hmem))⟩

/-- Where a reading within a literal and one outside show the same, they show nothing or the mark,
and it changes both. -/
theorem opposed_step {mode other : Mode} (h : Opposed mode other) {c : Char} {next : Option Char}
    (hsame : veil (step .slashes mode c next).2 = veil (step .slashes other c next).2) :
    (isBlank (step .slashes other c next).2 = true ∨
        (step .slashes other c next).2 = templateMark) ∧
      Opposed (step .slashes mode c next).1 (step .slashes other c next).1 := by
  have hspace : veil ' ' = ' ' := by decide
  have hmark : veil templateMark = templateMark := by decide
  cases h with
  | @inside escaped _ hquiet =>
      rcases step_literal escaped c next with ⟨escaped', hstep⟩ | ⟨rfl, hstep⟩
      · rw [hstep, hspace] at hsame
        have hblank := veil_eq_space_iff.1 hsame.symm
        rw [hstep]
        exact ⟨.inl hblank, .inside (quiet_step hquiet hblank)⟩
      · rw [hstep, hmark] at hsame
        have hshown := veil_eq_templateMark_iff.1 hsame.symm
        obtain ⟨prev, -, hopens⟩ := step_of_shown_templateMark hquiet hshown
        rw [hstep, hopens]
        exact ⟨.inr rfl, .outside trivial⟩
  | @outside escaped _ hquiet =>
      rcases step_literal escaped c next with ⟨escaped', hstep⟩ | ⟨rfl, hstep⟩
      · rw [hstep, hspace] at hsame
        have hblank := veil_eq_space_iff.1 hsame
        rw [hstep]
        exact ⟨.inl rfl, .outside (quiet_step hquiet hblank)⟩
      · rw [hstep, hmark] at hsame
        have hshown := veil_eq_templateMark_iff.1 hsame
        obtain ⟨prev, -, hopens⟩ := step_of_shown_templateMark hquiet hshown
        rw [hstep, hopens]
        exact ⟨.inr rfl, .inside trivial⟩

/-- **Two readings that swap code and string show no code, if they show the same.** -/
theorem shown_of_opposed {mode other : Mode} (h : Opposed mode other) {text : Line}
    (hsame : spaced (run .slashes mode text).1 = spaced (run .slashes other text).1) :
    ∀ c ∈ (run .slashes other text).1, isBlank c = true ∨ c = templateMark := by
  induction text generalizing mode other with
  | nil => exact fun c hc => absurd hc List.not_mem_nil
  | cons c text ih =>
      rw [run_cons, run_cons] at hsame
      obtain ⟨hfirst, hothers⟩ := List.cons.inj hsame
      obtain ⟨hshown, hnext⟩ := opposed_step h hfirst
      rw [run_cons]
      exact List.forall_mem_cons.2 ⟨hshown, ih hnext hothers⟩

/-! ## Lines of a literal -/

theorem templateMark_ends_no_comment (rest : Line) :
    (templateMark :: rest).head? ∉ [some '/', some '*'] := by
  rw [List.head?_cons]
  decide

theorem LiteralLine.run_text (l : LiteralLine) :
    run .slashes (.string templateMark false) l.text =
      (blanksOf l.text, .string templateMark l.continued) := by
  rw [text, run_string l.free, blanksOf_append]
  cases l.continued <;> rfl

namespace TemplateLiteral

variable (l : TemplateLiteral)

theorem maskFrom_firstLine {inBlock : Bool} {front shown : Line} {prev : Option Char}
    (h : run .slashes (startMode inBlock) front = (shown, .code prev)) :
    maskFrom .slashes inBlock (l.firstLine front) =
      (shown ++ templateMark :: blanksOf l.first.text, false) := by
  have hrun : run .slashes (startMode inBlock) (l.firstLine front) =
      (shown ++ templateMark :: blanksOf l.first.text, .string templateMark l.first.continued) := by
    rw [firstLine, run_slashes_append (templateMark_ends_no_comment _), h, run_cons,
      step_templateMark, l.first.run_text]
  rw [maskFrom, hrun]
  rfl

/-- How the text on the last line is read: as code, or within a comment that the text has opened. -/
def lastReading : Line × Mode :=
  run .slashes (startMode (blockBehind .slashes false (l.middle.map LiteralLine.text)))
    (bodyText l.last)

theorem maskLines_furtherLines (behind : Line) :
    maskLines .slashes (l.furtherLines behind) =
      maskLines .slashes (l.middle.map LiteralLine.text) ++
        [l.lastReading.1 ++ (run .slashes l.lastReading.2 (templateMark :: behind)).1] := by
  rw [furtherLines, maskLines, maskLinesFrom_append, maskLinesFrom_cons, maskFrom,
    run_slashes_append (templateMark_ends_no_comment _)]
  rfl

/-- The reading that would have to be right: the text shows nothing as code and is closed in code,
and what stands behind looks the same within a string as in code. -/
structure ReadAlike (behind : Line) : Prop where
  middle : ∀ code ∈ maskLines .slashes (l.middle.map LiteralLine.text), isBlankText code = true
  last : isBlankText l.lastReading.1 = true
  closes : ∃ prev, l.lastReading.2 = .code prev
  behind : spaced (run .slashes (.string templateMark false) behind).1 =
    spaced (run .slashes (.code (some templateMark)) behind).1

theorem quiet_lastReading (h : isBlankText l.lastReading.1 = true) : l.lastReading.2.Quiet :=
  quiet_run (quiet_startMode _) (List.all_eq_true.1 h)

theorem map_spaced_eq_iff {codes texts : List Line}
    (h : List.Forall₂ IsMasked codes texts) :
    codes.map spaced = texts.map blanksOf ↔ ∀ code ∈ codes, isBlankText code = true := by
  induction h with
  | nil => exact iff_of_true rfl (fun _ h => absurd h List.not_mem_nil)
  | cons hmasked _ ih =>
      rw [List.map_cons, List.map_cons, List.cons.injEq, ih, List.forall_mem_cons,
        spaced_eq_blanksOf_iff hmasked.length_eq]

/-- The last line shows what it is meant to, if and only if its text shows nothing and its mark
opens a string in front of what looks the same in a string. -/
theorem lastLine_iff (behind : Line) :
    spaced (l.lastReading.1 ++ (run .slashes l.lastReading.2 (templateMark :: behind)).1) =
        spaced (blanksOf (bodyText l.last) ++
          templateMark :: (run .slashes (.code (some templateMark)) behind).1) ↔
      isBlankText l.lastReading.1 = true ∧ (∃ prev, l.lastReading.2 = .code prev) ∧
        spaced (run .slashes (.string templateMark false) behind).1 =
          spaced (run .slashes (.code (some templateMark)) behind).1 := by
  have hlength : l.lastReading.1.length = (bodyText l.last).length :=
    (isMasked_run .slashes _ (bodyText l.last)).length_eq
  have hcons : ∀ (c : Char) (rest : Line), spaced (c :: rest) = veil c :: spaced rest :=
    fun _ _ => rfl
  have hmark : veil templateMark = templateMark := by decide
  rw [run_cons, spaced_append, spaced_append, spaced_blanksOf, hcons, hcons, hmark]
  constructor
  · intro hsame
    obtain ⟨hfront, hback⟩ := List.append_inj hsame
      (by rw [length_spaced, hlength, blanksOf, List.length_replicate])
    obtain ⟨hfirst, hothers⟩ := List.cons.inj hback
    have hblank := (spaced_eq_blanksOf_iff hlength).1 hfront
    obtain ⟨prev, hmode, hopens⟩ := step_of_shown_templateMark (l.quiet_lastReading hblank)
      (veil_eq_templateMark_iff.1 hfirst)
    rw [hopens] at hothers
    exact ⟨hblank, ⟨prev, hmode⟩, hothers⟩
  · rintro ⟨hblank, ⟨prev, hmode⟩, hbehind⟩
    rw [hmode, step_templateMark, (spaced_eq_blanksOf_iff hlength).2 hblank, hmark, hbehind]

theorem meant_iff_readAlike (behind : Line) :
    (maskLines .slashes (l.furtherLines behind)).map spaced = (l.meantLines behind).map spaced ↔
      l.ReadAlike behind := by
  have hmiddle : (l.middle.map (fun line => blanksOf line.text)).map spaced =
      (l.middle.map LiteralLine.text).map blanksOf := by
    rw [List.map_map, List.map_map]
    exact List.map_congr_left (fun line _ => spaced_blanksOf line.text)
  have hlength : ((maskLines .slashes (l.middle.map LiteralLine.text)).map spaced).length =
      ((l.middle.map LiteralLine.text).map blanksOf).length := by
    rw [List.length_map, List.length_map, length_maskLines]
  have hlines := map_spaced_eq_iff
    (isMasked_maskLinesFrom .slashes false (l.middle.map LiteralLine.text))
  rw [maskLines_furtherLines, meantLines, List.map_append, List.map_append, List.map_singleton,
    List.map_singleton, hmiddle]
  constructor
  · intro hsame
    obtain ⟨hfront, hback⟩ := List.append_inj hsame hlength
    obtain ⟨hlast, hcloses, hbehind⟩ := (l.lastLine_iff behind).1 (List.singleton_inj.1 hback)
    exact ⟨hlines.1 hfront, hlast, hcloses, hbehind⟩
  · intro h
    have hlast := (l.lastLine_iff behind).2 ⟨h.last, h.closes, h.behind⟩
    rw [hlast]
    exact congrArg (· ++ _) (hlines.2 h.middle)

theorem maskLines_furtherLines_of_closes {prev : Option Char} (h : l.lastReading.2 = .code prev)
    {behind : Line} (hbehind : templateMark ∉ behind) :
    maskLines .slashes (l.furtherLines behind) =
      maskLines .slashes (l.middle.map LiteralLine.text) ++
        [l.lastReading.1 ++ templateMark :: blanksOf behind] := by
  obtain ⟨escaped, hhidden⟩ := run_string_of_not_mem .slashes hbehind false
  rw [maskLines_furtherLines, h, run_cons, step_templateMark, hhidden]

end TemplateLiteral

/-! ## Sources with a literal over lines -/

/-- **A template literal is read up to the end of its line.**  Let a literal over lines stand in a
source, where the mask meets its opening mark in code.  Its first line is masked as it is meant, and
all behind that line is masked and analyzed as a source of its own.  The further lines of the
literal show what they are meant to if and only if the literal reads alike, and then no code but
marks stands behind it on its last line.  Where the closing mark is met in code, what stands behind
it is hidden up to the next mark. -/
theorem template_literal_ends_with_its_line (source : String) (l : TemplateLiteral)
    (above below : List Line) (front behind shown : Line) (prev : Option Char)
    (hsource : linesOf source = above ++ l.firstLine front :: (l.furtherLines behind ++ below))
    (hfront : run .slashes (startMode (blockBehind .slashes false above)) front =
      (shown, .code prev)) :
    maskLines .slashes (linesOf source) =
      maskLines .slashes above ++ (shown ++ templateMark :: blanksOf l.first.text) ::
        (maskLines .slashes (l.furtherLines behind) ++
          maskLinesFrom .slashes (blockBehind .slashes false (l.furtherLines behind)) below) ∧
    (analyze source).Joined (above ++ [l.firstLine front]) (l.furtherLines behind ++ below)
      (analyzeLines (above ++ [l.firstLine front]))
      (analyzeLines (l.furtherLines behind ++ below)) ∧
    ((maskLines .slashes (l.furtherLines behind)).map spaced =
        (l.meantLines behind).map spaced ↔ l.ReadAlike behind) ∧
    (l.ReadAlike behind → ∀ c ∈ (run .slashes (.code (some templateMark)) behind).1,
      isBlank c = true ∨ c = templateMark) ∧
    (∀ prev', l.lastReading.2 = .code prev' → templateMark ∉ behind →
      maskLines .slashes (l.furtherLines behind) =
        maskLines .slashes (l.middle.map LiteralLine.text) ++
          [l.lastReading.1 ++ templateMark :: blanksOf behind]) := by
  have hfirst := l.maskFrom_firstLine hfront
  have hclosed : blockBehind .slashes false (above ++ [l.firstLine front]) = false := by
    rw [blockBehind, List.foldl_append]
    exact congrArg Prod.snd hfirst
  have hcut : linesOf source =
      (above ++ [l.firstLine front]) ++ (l.furtherLines behind ++ below) := by
    rw [hsource, List.append_assoc]
    rfl
  refine ⟨?_, ?_, l.meant_iff_readAlike behind, ?_, ?_⟩
  · rw [hsource, maskLines, maskLinesFrom_append, maskLinesFrom_cons, hfirst, maskLinesFrom_append]
    rfl
  · rw [analyze, hcut]
    exact joined_analyzeLines hclosed _
  · intro halike
    have hopposed : Opposed (.string templateMark false) (.code (some templateMark)) :=
      .inside trivial
    exact shown_of_opposed hopposed halike.behind
  · exact fun prev' hcloses hbehind => l.maskLines_furtherLines_of_closes hcloses hbehind

/-- A literal over two lines. -/
def sampleLiteral : TemplateLiteral where
  first := ⟨[.plain 'a'], false, by decide⟩
  middle := []
  last := [.plain 'f', .plain '(', .plain '2', .plain ')']
  free := by decide

/-- A call stands within a literal over two lines, and another behind it. -/
def calledBehind : String :=
  "const s = \x60a\nf(2)\x60; g(s);\nfunction f() {}\nfunction g(x) {}"

/-- The call in the literal is shown, and the one behind is hidden. -/
theorem calledBehind_read_line_by_line :
    maskLines .slashes (linesOf calledBehind) = ["const s = \x60 ", "f(2)\x60       ",
      "function f() {}", "function g(x) {}"].map String.toList ∧
    ¬sampleLiteral.ReadAlike "; g(s);".toList := by
  have hfront : run .slashes (startMode (blockBehind .slashes false [])) "const s = ".toList =
      ("const s = ".toList, .code (some '=')) := by decide
  obtain ⟨hmask, -, -, halike, -⟩ := template_literal_ends_with_its_line calledBehind sampleLiteral
    [] (["function f() {}", "function g(x) {}"].map String.toList) "const s = ".toList
    "; g(s);".toList _ _ (by decide) hfront
  refine ⟨hmask.trans (by decide), fun h => ?_⟩
  exact absurd (halike h 'g' (by decide)) (by decide)

def calledBehindMeant : List CodeLine :=
  pairLines 1 (linesOf calledBehind) ("const s = \x60 ".toList ::
    (sampleLiteral.meantLines "; g(s);".toList ++
      maskLines .slashes (["function f() {}", "function g(x) {}"].map String.toList)))

/-- **A literal over lines is taken for code, and the code behind it for a string.**  The call in
the literal counts as a use, its number is magic, and the call behind it is lost with its
argument. -/
theorem calledBehind_misread :
    ((analyze calledBehind).unusedFunctions = [⟨"g", 4⟩] ∧
      (analyze calledBehind).unusedVariables = [⟨"s", 1⟩] ∧
      (analyze calledBehind).magicNumbers = [⟨"2", 2⟩] ∧
      (analyze calledBehind).semicolonMissing = [1, 2]) ∧
    (findingsOf calledBehindMeant).unusedFunctions = [⟨"f", 3⟩] ∧
      (findingsOf calledBehindMeant).unusedVariables = [] ∧
      (findingsOf calledBehindMeant).magicNumbers = [] ∧
      (findingsOf calledBehindMeant).semicolonMissing = [1] := by
  decide

end CodeSurvey.JavaScript
