/-
# Masking a line piece by piece

Within a string, what is read is hidden: up to the mark that closes it, if the text is made of
pieces (`run_string`), and to the end of the line, if its mark does not occur
(`run_string_of_not_mem`).

Where comments begin with a number sign, a step of the mask does not depend on the character behind
the one it reads.  So a line is masked piece by piece: the mask of a front, and then the mask of
the rest from the mode that the front ends in.

Where comments begin with two slashes, a step looks at the next character for one thing: whether it
completes a mark of a comment.  So a line may be cut in front of any other character
(`run_slashes_append`).  Outside of strings and regular expressions the mask is quiet.  It stays so
as long as nothing shows, since what leads into one is shown (`quiet_run`).
-/
import CodeSurvey.Proofs.Masking
import CodeSurvey.Proofs.Masking.Rendered

namespace CodeSurvey.Masking

open Text

/-! ## Strings -/

section Strings

variable {style : CommentStyle}

/-- A text that is hidden, a space for each character. -/
def blanksOf (text : Line) : Line := List.replicate text.length ' '

@[simp] theorem blanksOf_cons (c : Char) (text : Line) :
    blanksOf (c :: text) = ' ' :: blanksOf text := rfl

@[simp] theorem blanksOf_append (front back : Line) :
    blanksOf (front ++ back) = blanksOf front ++ blanksOf back := by
  rw [blanksOf, List.length_append]
  exact List.replicate_append_replicate.symm

theorem run_string {quote : Char} {body : List Piece} (h : ∀ p ∈ body, p.Free [quote])
    (rest : Line) :
    run style (.string quote false) (bodyText body ++ rest) =
      (blanksOf (bodyText body) ++ (run style (.string quote false) rest).1,
        (run style (.string quote false) rest).2) := by
  induction body with
  | nil => rfl
  | cons p body ih =>
      obtain ⟨hp, hothers⟩ := List.forall_mem_cons.1 h
      have hrest := ih hothers
      rw [bodyText, List.flatMap_cons, List.append_assoc, ← bodyText]
      cases p with
      | plain c =>
          have hhides : Hides style (.string quote false) (.string quote true) [quote] :=
            hides_string quote
          rw [Piece.chars, List.singleton_append, run_cons, hhides.plain c _ hp.1 hp.2, hrest]
          rfl
      | escaped c =>
          have hescaped : ∀ text, run style (.string quote false) ('\\' :: c :: text) =
              (' ' :: ' ' :: (run style (.string quote false) text).1,
                (run style (.string quote false) text).2) := fun _ => rfl
          have htwo : Piece.chars (.escaped c) ++ (bodyText body ++ rest) =
              '\\' :: c :: (bodyText body ++ rest) := rfl
          rw [htwo, hescaped, hrest]
          rfl

/-- A string is not left where its mark does not occur. -/
theorem run_string_of_not_mem (style : CommentStyle) {quote : Char} {text : Line}
    (h : quote ∉ text) (escaped : Bool) :
    ∃ escaped', run style (.string quote escaped) text =
      (blanksOf text, .string quote escaped') := by
  induction text generalizing escaped with
  | nil => exact ⟨escaped, rfl⟩
  | cons c text ih =>
      have hc : c ≠ quote := fun e => h (e ▸ List.mem_cons_self)
      have hstep : ∃ escaped', step style (.string quote escaped) c text.head? =
          (.string quote escaped', ' ') := by
        cases escaped with
        | true => exact ⟨false, rfl⟩
        | false =>
            rcases eq_or_ne c '\\' with rfl | hbackslash
            · exact ⟨true, rfl⟩
            · exact ⟨false, (hides_string quote).plain c _ hbackslash
                (fun hmem => hc (List.mem_singleton.1 hmem))⟩
      obtain ⟨escaped', hstep⟩ := hstep
      obtain ⟨last, hrest⟩ := ih (fun hmem => h (List.mem_cons_of_mem c hmem)) escaped'
      exact ⟨last, by rw [run_cons, hstep, hrest, blanksOf_cons]⟩

end Strings

/-! ## Comments behind number signs -/

section Hash

def Mode.OnLine : Mode → Prop
  | .code _ | .string _ _ | .lineComment => True
  | _ => False

theorem stepCode_hash (prev : Option Char) (c : Char) (next : Option Char) :
    stepCode .hash prev c next =
      if c = '#' then (.lineComment, ' ')
      else if isQuote .hash c then (.string c false, c)
      else (.code (remember prev c), c) := by
  simp [stepCode, startsComment]

theorem step_hash_next {mode : Mode} (h : mode.OnLine) (c : Char) (next next' : Option Char) :
    step .hash mode c next = step .hash mode c next' := by
  cases mode with
  | code prev => rw [step, step, stepCode_hash, stepCode_hash]
  | string closer escaped | lineComment => rfl
  | regex inClass escaped | blockOpening prev | block prev | blockClosing prev => cases h

theorem onLine_step {mode : Mode} (h : mode.OnLine) (c : Char) (next : Option Char) :
    (step .hash mode c next).1.OnLine := by
  cases mode with
  | code prev =>
      rw [step, stepCode_hash]
      repeat' split
      all_goals trivial
  | string closer escaped =>
      rw [step, stepString]
      repeat' split
      all_goals trivial
  | lineComment => trivial
  | regex inClass escaped | blockOpening prev | block prev | blockClosing prev => cases h

theorem run_append {mode : Mode} (h : mode.OnLine) (front back : Line) :
    run .hash mode (front ++ back) =
      ((run .hash mode front).1 ++ (run .hash (run .hash mode front).2 back).1,
        (run .hash (run .hash mode front).2 back).2) := by
  induction front generalizing mode with
  | nil => rfl
  | cons c front ih =>
      rw [List.cons_append, run_cons, run_cons, step_hash_next h c (front ++ back).head? front.head?,
        ih (onLine_step h c front.head?)]
      rfl

/-- Masking puts no character but a space in front. -/
theorem IsMasked.head?_ne {code line : Line} (h : IsMasked code line) {c : Char} (hc : c ≠ ' ')
    (hline : line.head? ≠ some c) : code.head? ≠ some c := by
  cases h with
  | nil => exact hline
  | cons hshown _ =>
      intro hhead
      rw [List.head?_cons] at hhead hline
      rcases hshown with hshown | hshown
      · rw [hshown] at hhead
        exact hline hhead
      · exact hc ((Option.some.inj hhead).symm.trans hshown)

theorem run_of_isCode {text : Line} (h : ∀ c ∈ text, IsCode .hash c) (prev : Option Char) :
    ∃ prev', run .hash (.code prev) text = (text, .code prev') := by
  induction text generalizing prev with
  | nil => exact ⟨prev, rfl⟩
  | cons c text ih =>
      obtain ⟨hc, hothers⟩ := List.forall_mem_cons.1 h
      obtain ⟨prev', hrest⟩ := ih hothers (remember prev c)
      refine ⟨prev', ?_⟩
      rw [run_cons, step, stepCode_of_isCode hc, hrest]

/-- What stood before the code does not show. -/
theorem run_code_eq (prev prev' : Option Char) (text : Line) :
    (run .hash (.code prev) text).1 = (run .hash (.code prev') text).1 := by
  induction text generalizing prev prev' with
  | nil => rfl
  | cons c text ih =>
      rw [run_cons, run_cons, step, step, stepCode_hash, stepCode_hash]
      split
      · rfl
      · split
        · rfl
        · exact congrArg (c :: ·) (ih _ _)

theorem run_bodyText {quote : Char} {body : List Piece} (h : ∀ p ∈ body, p.Free [quote]) :
    run .hash (.string quote false) (bodyText body) =
      (List.replicate (bodyText body).length ' ', .string quote false) := by
  have hrun : run .hash (.string quote false) (bodyText body ++ []) = _ := run_string h []
  rw [List.append_nil] at hrun
  rw [hrun]
  exact congrArg (·, _) (List.append_nil _)

end Hash

/-! ## Comments behind slashes -/

section Slashes

variable {style : CommentStyle} {mode : Mode}

/-! ### Cutting a line -/

theorem step_slashes_next {next : Option Char} (h : next ∉ [some '/', some '*']) (mode : Mode)
    (c : Char) : step .slashes mode c next = step .slashes mode c none := by
  simp only [List.mem_cons, List.not_mem_nil, or_false, not_or] at h
  cases mode with
  | code prev => simp [step, stepCode, startsComment, h]
  | block prev => simp [step, stepBlock, h]
  | string closer escaped | regex inClass escaped | lineComment | blockOpening prev
  | blockClosing prev => rfl

/-- **A line may be cut where no mark of a comment is completed.** -/
theorem run_slashes_append {back : Line} (h : back.head? ∉ [some '/', some '*']) (mode : Mode)
    (front : Line) :
    run .slashes mode (front ++ back) =
      ((run .slashes mode front).1 ++ (run .slashes (run .slashes mode front).2 back).1,
        (run .slashes (run .slashes mode front).2 back).2) := by
  induction front generalizing mode with
  | nil => rfl
  | cons c front ih =>
      have hstep : step .slashes mode c (front ++ back).head? =
          step .slashes mode c front.head? := by
        cases front with
        | nil => exact step_slashes_next h mode c
        | cons d front => rfl
      rw [List.cons_append, run_cons, run_cons, hstep, ih]
      rfl

/-! ### Quiet modes -/

/-- A mode outside of strings and regular expressions. -/
def Mode.Quiet : Mode → Prop
  | .string _ _ | .regex _ _ => False
  | .code _ | .lineComment | .blockOpening _ | .block _ | .blockClosing _ => True

theorem not_isBlank_of_isQuote {c : Char} (h : isQuote style c = true) : isBlank c = false :=
  (quote_ne_of_isQuote h).2.2.2

theorem quiet_step (h : mode.Quiet) {c : Char} {next : Option Char}
    (hshown : isBlank (step style mode c next).2 = true) : (step style mode c next).1.Quiet := by
  cases mode with
  | code prev =>
      rw [step, stepCode] at hshown ⊢
      split
      · trivial
      · split
        · trivial
        · split
          · rename_i hcomment hblock hregex
            rw [if_neg hcomment, if_neg hblock, if_pos hregex] at hshown
            simp only [Bool.and_eq_true, decide_eq_true_eq] at hregex
            rw [hregex.1.2] at hshown
            exact absurd hshown (by decide)
          · split
            · rename_i hcomment hblock hregex hquote
              rw [if_neg hcomment, if_neg hblock, if_neg hregex, if_pos hquote,
                not_isBlank_of_isQuote hquote] at hshown
              cases hshown
            · trivial
  | block prev =>
      rw [step, stepBlock]
      split <;> trivial
  | lineComment | blockOpening prev | blockClosing prev => trivial
  | string closer escaped | regex inClass escaped => cases h

/-- Where nothing shows, no string and no regular expression is begun. -/
theorem quiet_run (h : mode.Quiet) {line : Line}
    (hshown : ∀ c ∈ (run style mode line).1, isBlank c = true) :
    (run style mode line).2.Quiet := by
  induction line generalizing mode with
  | nil => exact h
  | cons c line ih =>
      rw [run_cons] at hshown ⊢
      obtain ⟨hfirst, hothers⟩ := List.forall_mem_cons.1 hshown
      exact ih (quiet_step h hfirst) hothers

theorem quiet_startMode (inBlock : Bool) : (startMode inBlock).Quiet := by
  cases inBlock <;> trivial

end Slashes

end CodeSurvey.Masking
