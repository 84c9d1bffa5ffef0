/-
# What is left of masked lines

The mask keeps a character or writes a space for it (`IsMasked`), so a masked line is as long as
the line and a piece without spaces stands in both at one place (`IsMasked.isInfix`).

Lines are masked in order, and one thing is carried from a line to the next: whether a block comment
is open.  `blockBehind` is what a run over lines hands on.  So lines are masked front by back
(`maskLinesFrom_append`), and behind lines that leave no block comment open the others are masked as
they would be alone (`maskLines_append`).
-/
import Mathlib.Data.List.Forall2
import CodeSurvey.Masking

namespace CodeSurvey.Masking

open Text (Line)

/-- A masked form of a line: each character is kept or hidden behind a space. -/
abbrev IsMasked (code line : Line) : Prop :=
  List.Forall₂ (fun shown c => shown = c ∨ shown = ' ') code line

theorem stepCode_shown (style : CommentStyle) (prev : Option Char) (c : Char)
    (next : Option Char) :
    (stepCode style prev c next).2 = c ∨ (stepCode style prev c next).2 = ' ' := by
  unfold stepCode
  repeat' split
  · exact .inr rfl
  · exact .inr rfl
  · exact .inl rfl
  · exact .inl rfl
  · exact .inl rfl

theorem stepString_shown (closer : Char) (escaped : Bool) (c : Char) :
    (stepString closer escaped c).2 = c ∨ (stepString closer escaped c).2 = ' ' := by
  unfold stepString
  repeat' split
  · exact .inr rfl
  · exact .inr rfl
  · exact .inl rfl
  · exact .inr rfl

theorem stepRegex_shown (inClass escaped : Bool) (c : Char) :
    (stepRegex inClass escaped c).2 = c ∨ (stepRegex inClass escaped c).2 = ' ' := by
  unfold stepRegex
  repeat' split
  · exact .inr rfl
  · exact .inr rfl
  · exact .inr rfl
  · exact .inr rfl
  · exact .inl rfl
  · exact .inr rfl

theorem stepBlock_shown (prev : Option Char) (c : Char) (next : Option Char) :
    (stepBlock prev c next).2 = ' ' := by
  unfold stepBlock
  split <;> rfl

theorem step_shown (style : CommentStyle) (mode : Mode) (c : Char) (next : Option Char) :
    (step style mode c next).2 = c ∨ (step style mode c next).2 = ' ' := by
  cases mode with
  | code prev => exact stepCode_shown style prev c next
  | string closer escaped => exact stepString_shown closer escaped c
  | regex inClass escaped => exact stepRegex_shown inClass escaped c
  | block prev => exact .inr (stepBlock_shown prev c next)
  | lineComment | blockOpening prev | blockClosing prev => exact .inr rfl

theorem run_cons (style : CommentStyle) (mode : Mode) (c : Char) (rest : Line) :
    run style mode (c :: rest) =
      ((step style mode c rest.head?).2 :: (run style (step style mode c rest.head?).1 rest).1,
        (run style (step style mode c rest.head?).1 rest).2) := rfl

theorem isMasked_run (style : CommentStyle) (mode : Mode) (line : Line) :
    IsMasked (run style mode line).1 line := by
  induction line generalizing mode with
  | nil => exact .nil
  | cons c line ih => exact .cons (step_shown style mode c line.head?) (ih _)

theorem isMasked_maskLinesFrom (style : CommentStyle) (inBlock : Bool) (lines : List Line) :
    List.Forall₂ IsMasked (maskLinesFrom style inBlock lines) lines := by
  induction lines generalizing inBlock with
  | nil => exact .nil
  | cons line lines ih => exact .cons (isMasked_run style (startMode inBlock) line) (ih _)

theorem IsMasked.isPrefix {piece rest line : Line} (h : IsMasked (piece ++ rest) line)
    (hpiece : ∀ c ∈ piece, c ≠ ' ') : piece <+: line := by
  induction piece generalizing line with
  | nil => exact List.nil_prefix
  | cons c piece ih =>
      cases h with
      | @cons _ d _ line hc h =>
          obtain ⟨hfirst, hothers⟩ := List.forall_mem_cons.1 hpiece
          rw [hc.resolve_right hfirst]
          exact List.cons_prefix_cons.2 ⟨rfl, ih h hothers⟩

/-- **A piece without spaces of a masked line is a piece of the line.** -/
theorem IsMasked.isInfix {piece code line : Line} (h : IsMasked code line)
    (hcode : piece <:+: code) (hpiece : ∀ c ∈ piece, c ≠ ' ') : piece <:+: line := by
  obtain ⟨front, back, rfl⟩ := hcode
  rw [List.append_assoc] at h
  induction front generalizing line with
  | nil =>
      rw [List.nil_append] at h
      exact (IsMasked.isPrefix h hpiece).isInfix
  | cons c front ih =>
      cases h with
      | @cons _ d _ line _ h => exact (ih h).trans (List.suffix_cons d line).isInfix

/-! ## From line to line -/

section Lines

variable {style : CommentStyle}

def blockBehind (style : CommentStyle) (inBlock : Bool) (lines : List Line) : Bool :=
  lines.foldl (fun inBlock line => (maskFrom style inBlock line).2) inBlock

theorem maskLinesFrom_cons (inBlock : Bool) (line : Line) (rest : List Line) :
    maskLinesFrom style inBlock (line :: rest) =
      (maskFrom style inBlock line).1 ::
        maskLinesFrom style (maskFrom style inBlock line).2 rest := rfl

theorem maskLinesFrom_append (inBlock : Bool) (front back : List Line) :
    maskLinesFrom style inBlock (front ++ back) =
      maskLinesFrom style inBlock front ++
        maskLinesFrom style (blockBehind style inBlock front) back := by
  induction front generalizing inBlock with
  | nil => rfl
  | cons line front ih =>
      rw [List.cons_append, maskLinesFrom_cons, ih]
      rfl

/-- **Closed lines leave nothing behind.** -/
theorem maskLines_append {front : List Line} (h : blockBehind style false front = false)
    (back : List Line) :
    maskLines style (front ++ back) = maskLines style front ++ maskLines style back := by
  rw [maskLines, maskLinesFrom_append, h]
  rfl

theorem length_maskLines (style : CommentStyle) (lines : List Line) :
    (maskLines style lines).length = lines.length :=
  (isMasked_maskLinesFrom style false lines).length_eq

end Lines

end CodeSurvey.Masking
