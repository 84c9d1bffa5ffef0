/-
# Masked lines are masked already

Let the mask run over lines that it has masked.  The two runs go through different modes, for a
backslash, the brackets of a class and the marks of a comment are hidden, and the second run sees
none of them.  `LeftAs` says what is left of a mode: within a literal the second run is in the same
literal, with nothing escaped and no class open, and in a comment it is still in code.

A step keeps two such modes together (`step_again`).  What could part them is a slash that shows,
since the character behind it decides whether a comment begins.  But that character is hidden, or it
shows and the first run has seen it too; so two slashes side by side, as behind a regular
expression, are read alike.  Lines therefore stay as they are, and no comment is ever begun
(`masked_lines_stay`).
-/
import CodeSurvey.Proofs.Masking
import CodeSurvey.Proofs.Masking.Rendered

namespace CodeSurvey.Masking

open Text

variable {style : CommentStyle} {mode mode' : Mode}

/-! ## What is left of a mode -/

/-- The mode of the mask on a masked line, where it was in a mode on the line. -/
inductive LeftAs (style : CommentStyle) : Mode → Mode → Prop
  | code (prev : Option Char) : LeftAs style (.code prev) (.code prev)
  | string {closer : Char} (escaped : Bool) : isQuote style closer = true →
      LeftAs style (.string closer escaped) (.string closer false)
  | regex (inClass escaped : Bool) : LeftAs style (.regex inClass escaped) (.regex false false)
  | lineComment (prev : Option Char) : LeftAs style .lineComment (.code prev)
  | blockOpening (prev : Option Char) : LeftAs style (.blockOpening prev) (.code prev)
  | block (prev : Option Char) : LeftAs style (.block prev) (.code prev)
  | blockClosing (prev : Option Char) : LeftAs style (.blockClosing prev) (.code prev)

theorem LeftAs.not_inBlock (h : LeftAs style mode mode') : mode'.inBlock = false := by
  cases h <;> rfl

theorem leftAs_startMode (inBlock : Bool) :
    LeftAs style (startMode inBlock) (startMode false) := by
  cases inBlock with
  | false => exact .code none
  | true => exact .block none

/-! ## Steps -/

/-- What stands behind a character of a masked line. -/
def IsMaskedNext (next next' : Option Char) : Prop := next' = next ∨ next' = some ' '

theorem IsMasked.next {code line : Line} (h : IsMasked code line) :
    IsMaskedNext line.head? code.head? := by
  cases h with
  | nil => exact .inl rfl
  | cons hshown _ =>
      rcases hshown with hkept | hhidden
      · exact .inl (congrArg some hkept)
      · exact .inr (congrArg some hhidden)

theorem step_code_space (prev next : Option Char) :
    step style (.code prev) ' ' next = (.code prev, ' ') := by
  have hcode : IsCode style ' ' := by
    cases style <;> decide
  exact stepCode_of_isCode hcode prev next

theorem step_string_space {closer : Char} (h : isQuote style closer = true)
    (next : Option Char) :
    step style (.string closer false) ' ' next = (.string closer false, ' ') := by
  have hcloser : ' ' ≠ closer := by
    rintro rfl
    simp [isQuote] at h
  simp [step, stepString, hcloser]

/-- A character that opens no comment shows, and what stands behind it does not matter. -/
theorem stepCode_of_no_comment {prev next : Option Char} {c : Char}
    (hcomment : ¬startsComment style c next = true)
    (hblock : ¬(style = .slashes && c = '/' && next = some '*') = true) :
    stepCode style prev c next =
      if style = .slashes && c = '/' && regexMayFollow prev then (.regex false false, c)
      else if isQuote style c then (.string c false, c)
      else (.code (remember prev c), c) := by
  rw [stepCode, if_neg hcomment, if_neg hblock]

theorem stepCode_maskedNext {prev next next' : Option Char} {c : Char}
    (hcomment : ¬startsComment style c next = true)
    (hblock : ¬(style = .slashes && c = '/' && next = some '*') = true)
    (hnext : IsMaskedNext next next') :
    stepCode style prev c next' = stepCode style prev c next := by
  rcases hnext with rfl | rfl
  · rfl
  · have hcomment' : ¬startsComment style c (some ' ') = true := by
      cases style with
      | hash => exact hcomment
      | slashes => simp [startsComment]
    have hblock' : ¬(style = .slashes && c = '/' && some ' ' = some '*') = true := by simp
    rw [stepCode_of_no_comment hcomment hblock, stepCode_of_no_comment hcomment' hblock']

theorem stepCode_again (prev : Option Char) (c : Char) {next next' : Option Char}
    (hnext : IsMaskedNext next next') :
    ∃ after, step style (.code prev) (stepCode style prev c next).2 next' =
        (after, (stepCode style prev c next).2) ∧
      LeftAs style (stepCode style prev c next).1 after := by
  by_cases hcomment : startsComment style c next = true
  · rw [stepCode, if_pos hcomment]
    exact ⟨_, step_code_space prev next', .lineComment prev⟩
  · by_cases hblock : (style = .slashes && c = '/' && next = some '*') = true
    · rw [stepCode, if_neg hcomment, if_pos hblock]
      exact ⟨_, step_code_space prev next', .blockOpening prev⟩
    · -- the character shows, and the second run does with it what the first one did
      have hsame : step style (.code prev) c next' = stepCode style prev c next :=
        stepCode_maskedNext hcomment hblock hnext
      rw [stepCode_of_no_comment hcomment hblock] at hsame ⊢
      split
      · rename_i hregex
        rw [if_pos hregex] at hsame
        exact ⟨_, hsame, .regex false false⟩
      · rename_i hregex
        rw [if_neg hregex] at hsame
        split
        · rename_i hquote
          rw [if_pos hquote] at hsame
          exact ⟨_, hsame, .string false hquote⟩
        · rename_i hquote
          rw [if_neg hquote] at hsame
          exact ⟨_, hsame, .code _⟩

theorem stepString_again {closer : Char} (h : isQuote style closer = true) (escaped : Bool)
    (c : Char) (next' : Option Char) :
    ∃ after, step style (.string closer false) (stepString closer escaped c).2 next' =
        (after, (stepString closer escaped c).2) ∧
      LeftAs style (stepString closer escaped c).1 after := by
  have hspace := step_string_space h next'
  unfold stepString
  split
  · exact ⟨_, hspace, .string false h⟩
  · split
    · exact ⟨_, hspace, .string true h⟩
    · split
      · rename_i hbackslash hcloser
        subst hcloser
        refine ⟨.code (some c), ?_, .code _⟩
        simp [step, stepString, hbackslash]
      · exact ⟨_, hspace, .string false h⟩

theorem stepRegex_again (inClass escaped : Bool) (c : Char) (next' : Option Char) :
    ∃ after, step style (.regex false false) (stepRegex inClass escaped c).2 next' =
        (after, (stepRegex inClass escaped c).2) ∧
      LeftAs style (stepRegex inClass escaped c).1 after := by
  have hspace : step style (.regex false false) ' ' next' = (.regex false false, ' ') := rfl
  unfold stepRegex
  repeat' split
  · exact ⟨_, hspace, .regex inClass false⟩
  · exact ⟨_, hspace, .regex inClass true⟩
  · exact ⟨_, hspace, .regex true false⟩
  · exact ⟨_, hspace, .regex false false⟩
  · rename_i hcloser
    obtain ⟨rfl, -⟩ : c = '/' ∧ inClass = false := by simpa using hcloser
    exact ⟨.code (some '/'), rfl, .code _⟩
  · exact ⟨_, hspace, .regex inClass false⟩

/-- **A step shows again what it has shown**, and leaves the modes together. -/
theorem step_again (h : LeftAs style mode mode') (c : Char) {next next' : Option Char}
    (hnext : IsMaskedNext next next') :
    ∃ after, step style mode' (step style mode c next).2 next' =
        (after, (step style mode c next).2) ∧
      LeftAs style (step style mode c next).1 after := by
  cases h with
  | code prev => exact stepCode_again prev c hnext
  | string escaped hquote => exact stepString_again hquote escaped c next'
  | regex inClass escaped => exact stepRegex_again inClass escaped c next'
  | lineComment prev => exact ⟨_, step_code_space prev next', .lineComment prev⟩
  | blockOpening prev => exact ⟨_, step_code_space prev next', .block prev⟩
  | blockClosing prev => exact ⟨_, step_code_space prev next', .code prev⟩
  | block prev =>
      show ∃ after, step style (.code prev) (stepBlock prev c next).2 next' =
        (after, (stepBlock prev c next).2) ∧ LeftAs style (stepBlock prev c next).1 after
      unfold stepBlock
      split
      · exact ⟨_, step_code_space prev next', .blockClosing prev⟩
      · exact ⟨_, step_code_space prev next', .block prev⟩

/-! ## Lines -/

theorem run_again (h : LeftAs style mode mode') (line : Line) :
    ∃ last, run style mode' (run style mode line).1 = ((run style mode line).1, last) ∧
      LeftAs style (run style mode line).2 last := by
  induction line generalizing mode mode' with
  | nil => exact ⟨mode', rfl, h⟩
  | cons c line ih =>
      have hnext := IsMasked.next (isMasked_run style (step style mode c line.head?).1 line)
      obtain ⟨after, hstep, hafter⟩ := step_again h c hnext
      obtain ⟨last, hrun, hlast⟩ := ih hafter
      refine ⟨last, ?_, hlast⟩
      rw [run_cons, run_cons, hstep, hrun]

theorem maskFrom_again (inBlock : Bool) (line : Line) :
    maskFrom style false (maskFrom style inBlock line).1 =
      ((maskFrom style inBlock line).1, false) := by
  have hstart : LeftAs style (startMode inBlock) (startMode false) := leftAs_startMode inBlock
  obtain ⟨last, hrun, hlast⟩ := run_again hstart line
  show ((run style (startMode false) (run style (startMode inBlock) line).1).1,
    (run style (startMode false) (run style (startMode inBlock) line).1).2.inBlock) = _
  rw [hrun, hlast.not_inBlock]
  rfl

theorem maskLinesFrom_again (inBlock : Bool) (lines : List Line) :
    maskLinesFrom style false (maskLinesFrom style inBlock lines) =
        maskLinesFrom style inBlock lines ∧
      blockBehind style false (maskLinesFrom style inBlock lines) = false := by
  induction lines generalizing inBlock with
  | nil => exact ⟨rfl, rfl⟩
  | cons line lines ih =>
      obtain ⟨hlines, hblock⟩ := ih (maskFrom style inBlock line).2
      have hline : maskFrom style false (maskFrom style inBlock line).1 =
          ((maskFrom style inBlock line).1, false) := maskFrom_again inBlock line
      constructor
      · rw [maskLinesFrom_cons, maskLinesFrom_cons, hline, hlines]
      · show blockBehind style (maskFrom style false (maskFrom style inBlock line).1).2 _ = false
        rw [hline]
        exact hblock

/-- **Masked lines are masked already.**  The mask leaves them as they are, and no block comment is
open behind them, whatever began or ended in the lines that they were. -/
theorem masked_lines_stay (style : CommentStyle) (lines : List Line) :
    maskLines style (maskLines style lines) = maskLines style lines ∧
      blockBehind style false (maskLines style lines) = false :=
  maskLinesFrom_again false lines

/-- Slashes behind a regular expression, in a class of one and at the end of a line; a comment that
goes on over a line. -/
example :
    maskLines .slashes (["x = /a[/]//b; /* c", "d */ y = '\\'//'; z = /"].map String.toList) =
      ["x = /    //b;     ", "     y = '    '; z = /"].map String.toList := by
  decide

end CodeSurvey.Masking
