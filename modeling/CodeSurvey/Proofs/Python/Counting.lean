/-
# Counting quotes on masked lines

The mask knows one kind of string only.  It reads a triple quote as an empty string with one more
mark, and so it is within a string where the lexer is (`Lexer.Alike`), until a mark misleads it: a
lone one within a string of its kind, or one that closes a string in front of two more.  On a line
where nothing misleads, the triple quotes of the masked line are the delimiters that are there
(`Lexer.occurrences_eq_count`).

Where a mark misleads, the count may go wrong, and a line inside a string may open another behind
the end of the first.  What is behind is then read inside out.
-/
import CodeSurvey.Proofs.Masking.Literals
import CodeSurvey.Proofs.Python.Lexing

namespace CodeSurvey.Python

open Text

namespace Lexer

/-! ## Lines that read plainly -/

/-- A mark that the mask reads otherwise than the lexer: one that stands within a string of its kind
without closing it, or one that closes a string and has two more of its kind behind it. -/
def Misleads (mode : Mode) (c : Char) (rest : List Char) : Prop :=
  match mode with
  | .short quote false => c = quote.mark ∧ isTriple quote rest = true
  | .long quote false => c = quote.mark ∧ isTriple quote rest = false
  | _ => False

/-- Nothing on the rest of a line misleads. -/
def Plain (mode : Mode) (skip : Nat) : Line → Prop
  | [] => True
  | c :: rest =>
    if skip > 0 then Plain mode (skip - 1) rest
    else
      ¬Misleads mode c rest ∧
        Plain (read mode c rest).1 (if (read mode c rest).2.isSome then 2 else 0) rest

instance (mode : Mode) (c : Char) (rest : List Char) : Decidable (Misleads mode c rest) :=
  match mode with
  | .short quote false => inferInstanceAs (Decidable (c = quote.mark ∧ isTriple quote rest = true))
  | .long quote false => inferInstanceAs (Decidable (c = quote.mark ∧ isTriple quote rest = false))
  | .code | .comment | .short _ true | .long _ true => .isFalse id

instance decidablePlain :
    (mode : Mode) → (skip : Nat) → (line : Line) → Decidable (Plain mode skip line)
  | _, _, [] => .isTrue trivial
  | mode, skip, c :: rest =>
    have := decidablePlain mode (skip - 1) rest
    have := decidablePlain (read mode c rest).1 (if (read mode c rest).2.isSome then 2 else 0) rest
    inferInstanceAs (Decidable (if skip > 0 then _ else _ ∧ _))

/-- The modes in which mask and lexer read alike: the mask knows one kind of string only. -/
inductive Alike : Mode → Masking.Mode → Prop
  | code {prev : Option Char} : Alike .code (.code prev)
  | comment : Alike .comment .lineComment
  | short {quote : TripleQuote} {escaped : Bool} :
      Alike (.short quote escaped) (.string quote.mark escaped)
  | long {quote : TripleQuote} {escaped : Bool} :
      Alike (.long quote escaped) (.string quote.mark escaped)

theorem isTriple_iff {quote : TripleQuote} {rest : List Char} :
    isTriple quote rest = true ↔ ∃ tail, rest = quote.mark :: quote.mark :: tail := by
  rw [isTriple, List.isPrefixOf_iff_prefix]
  constructor
  · rintro ⟨tail, rfl⟩
    exact ⟨tail, rfl⟩
  · rintro ⟨tail, rfl⟩
    exact ⟨tail, rfl⟩

theorem stepCode_of_quoteOf?_eq_none {c : Char} (h : quoteOf? c = none) (prev next : Option Char) :
    Masking.stepCode .hash prev c next =
      if c = '#' then (.lineComment, ' ') else (.code (Masking.remember prev c), c) := by
  have hquote : Masking.isQuote .hash c = false := by
    simp only [quoteOf?] at h
    split at h
    · cases h
    · split at h
      · cases h
      · simp_all [Masking.isQuote]
  simp [Masking.stepCode_hash, hquote]

/-- How the mask goes on in front of the rest of a line: like the lexer, and without showing a mark
that would make three with the next two. -/
structure GoesOn (mode : Mode) (rest : List Char) (result : Masking.Mode × Char) : Prop where
  alike : Alike mode result.1
  notThree : ∀ quote, isTriple quote rest = true → result.2 ≠ quote.mark

theorem GoesOn.hiding {mode : Mode} {rest : List Char} {masker : Masking.Mode}
    (h : Alike mode masker) : GoesOn mode rest (masker, ' ') :=
  ⟨h, fun quote _ => quote.mark_ne.2.2.symm⟩

theorem goesOn_code {c : Char} {rest : List Char} (hread : (readCode c rest).2 = none)
    (prev next : Option Char) :
    GoesOn (readCode c rest).1 rest (Masking.stepCode .hash prev c next) := by
  unfold readCode at hread ⊢
  cases hc : quoteOf? c with
  | none =>
      rw [stepCode_of_quoteOf?_eq_none hc]
      by_cases hcomment : c = '#'
      · simp only [hcomment, if_true]
        exact .hiding .comment
      · simp only [hcomment, if_false]
        refine ⟨.code, fun quote _ hmark => ?_⟩
        rw [quoteOf?_eq_some_iff.2 hmark] at hc
        cases hc
  | some found =>
      have hmark := quoteOf?_eq_some_iff.1 hc
      by_cases htriple : isTriple found rest = true
      · simp [hc, htriple] at hread
      · rw [hmark, Masking.stepCode_quote found.isQuote_mark]
        simp only [htriple]
        refine ⟨.short, fun quote hquote hsame => htriple ?_⟩
        rwa [TripleQuote.mark_inj.1 hsame]

theorem goesOn_short {found : TripleQuote} {escaped : Bool} {c : Char} {rest : List Char}
    (hplain : ¬Misleads (.short found escaped) c rest) :
    GoesOn (readShort found escaped c) rest (Masking.stepString found.mark escaped c) := by
  unfold readShort Masking.stepString
  cases escaped with
  | true => exact .hiding .short
  | false =>
      simp only [Bool.false_eq_true, if_false]
      split
      · exact .hiding .short
      · split
        · rename_i hmark
          refine ⟨.code, fun quote htriple hsame => hplain ⟨hmark, ?_⟩⟩
          rwa [TripleQuote.mark_inj.1 (hmark.symm.trans hsame)]
        · exact .hiding .short

theorem goesOn_long {found : TripleQuote} {escaped : Bool} {c : Char} {rest : List Char}
    (hplain : ¬Misleads (.long found escaped) c rest)
    (hread : (readLong found escaped c rest).2 = none) :
    GoesOn (readLong found escaped c rest).1 rest (Masking.stepString found.mark escaped c) := by
  unfold readLong at hread ⊢
  unfold Masking.stepString
  cases escaped with
  | true => exact .hiding .long
  | false =>
      simp only [Bool.false_eq_true, if_false] at hread ⊢
      by_cases hescape : c = '\\'
      · simp only [hescape, if_true]
        exact .hiding .long
      · by_cases hmark : c = found.mark
        · -- a mark of its own kind would close the string, or mislead
          cases htriple : isTriple found rest with
          | true => simp [hmark, htriple, found.mark_ne] at hread
          | false => exact absurd ⟨hmark, htriple⟩ hplain
        · simp only [hescape, hmark, if_false, false_and]
          exact .hiding .long

/-- Where nothing misleads and no delimiter begins, the mask goes on like the lexer. -/
theorem Alike.goesOn {mode : Mode} {masker : Masking.Mode} {c : Char} {rest : List Char}
    (h : Alike mode masker) (hplain : ¬Misleads mode c rest)
    (hread : (read mode c rest).2 = none) (next : Option Char) :
    GoesOn (read mode c rest).1 rest (Masking.step .hash masker c next) := by
  cases h with
  | @code prev => exact goesOn_code hread prev next
  | comment => exact .hiding .comment
  | short => exact goesOn_short hplain
  | long => exact goesOn_long hplain hread

theorem Alike.run_delimiter {mode mode' : Mode} {masker : Masking.Mode} {quote : TripleQuote}
    {rest : List Char} (h : Alike mode masker)
    (hread : read mode quote.mark (quote.mark :: quote.mark :: rest) = (mode', some quote)) :
    ∃ masker', Alike mode' masker' ∧
      (Masking.run .hash masker (quote.text ++ rest)).1 =
        quote.text ++ (Masking.run .hash masker' rest).1 := by
  have hturn := turn_read mode quote.mark (quote.mark :: quote.mark :: rest)
  rw [hread] at hturn
  cases hturn with
  | opens hmode _ _ =>
      subst hmode
      cases h with
      | code =>
          refine ⟨.string quote.mark false, .long, ?_⟩
          cases quote <;> rfl
  | closes hmode _ _ =>
      subst hmode
      cases h with
      | long =>
          refine ⟨.code (some quote.mark), .code, ?_⟩
          cases quote <;> rfl

theorem occurrences_delimiter (quote found : TripleQuote) (text : List Char) :
    occurrences quote.text (found.text ++ text) =
      (if found = quote then 1 else 0) + occurrences quote.text text := by
  cases quote <;> cases found <;>
    simp [occurrences, countFrom, TripleQuote.text, List.isPrefixOf]

theorem occurrences_cons {quote : TripleQuote} {c : Char} {text : List Char}
    (h : quote.text.isPrefixOf (c :: text) = false) :
    occurrences quote.text (c :: text) = occurrences quote.text text := by
  simp [occurrences, countFrom, h]

theorem GoesOn.not_isPrefixOf {mode : Mode} {rest code : List Char}
    {result : Masking.Mode × Char} (h : GoesOn mode rest result)
    (hcode : Masking.IsMasked code rest) (quote : TripleQuote) :
    quote.text.isPrefixOf (result.2 :: code) = false := by
  rw [← Bool.not_eq_true, List.isPrefixOf_iff_prefix, quote.text_eq, List.cons_prefix_cons]
  rintro ⟨hmark, tail, rfl⟩
  refine h.notThree quote ?_ hmark.symm
  rw [isTriple, List.isPrefixOf_iff_prefix]
  refine hcode.isPrefix ?_
  simp [quote.mark_ne]

theorem Turn.delimiter {c : Char} {rest : List Char} {mode mode' : Mode} {quote : TripleQuote}
    (h : Turn c rest mode (mode', some quote)) :
    c = quote.mark ∧ ∃ tail, rest = quote.mark :: quote.mark :: tail := by
  cases h with
  | opens _ hmark htriple => exact ⟨hmark, isTriple_iff.1 htriple⟩
  | closes _ hmark htriple => exact ⟨hmark, isTriple_iff.1 htriple⟩

/-- **The count is that of the delimiters** on the rest of a line where nothing misleads. -/
theorem occurrences_eq_count (quote : TripleQuote) :
    (line : Line) → {mode : Mode} → {masker : Masking.Mode} → Alike mode masker →
      Plain mode 0 line →
        occurrences quote.text (Masking.run .hash masker line).1 =
          (lex mode 0 line).1.count quote
  | [], _, _, _, _ => rfl
  | c :: rest, mode, masker, h, hplain => by
      rw [Plain, if_neg (Nat.lt_irrefl 0)] at hplain
      rw [lex, if_neg (Nat.lt_irrefl 0)]
      obtain ⟨hc, hrest⟩ := hplain
      cases hread : read mode c rest with
      | mk mode' delimiter =>
          rw [hread] at hrest
          cases delimiter with
          | none =>
              have hon := h.goesOn hc (by rw [hread]) rest.head?
              have hcode := Masking.isMasked_run .hash (Masking.step .hash masker c rest.head?).1 rest
              rw [hread] at hon
              rw [Masking.run_cons, occurrences_cons (hon.not_isPrefixOf hcode quote)]
              exact occurrences_eq_count quote rest hon.alike hrest
          | some found =>
              -- a delimiter is read as a whole, so what is left is shorter by three
              have hturn := turn_read mode c rest
              rw [hread] at hturn
              obtain ⟨rfl, tail, rfl⟩ := hturn.delimiter
              obtain ⟨masker', halike, hrun⟩ := h.run_delimiter hread
              rw [found.text_eq] at hrun
              show occurrences _ (Masking.run .hash masker
                ([found.mark, found.mark, found.mark] ++ tail)).1 =
                  (found :: (lex mode' 0 tail).1).count quote
              rw [hrun, ← found.text_eq, occurrences_delimiter, List.count_cons,
                occurrences_eq_count quote tail halike hrest, Nat.add_comm]
              simp only [beq_iff_eq]
termination_by line => line.length

theorem counts_of_plain {line : Line} (h : Plain .code 0 line) (quote : TripleQuote) :
    Counts quote .code line := by
  have halike : Alike .code (.code none) := .code
  have hcount := occurrences_eq_count quote line halike h
  rw [Counts, leavesOpen, beq_iff_eq, passed, ← hcount]
  rfl

/-- A line that the machine has no trouble with: outside strings nothing on it misleads, and inside
it closes the string for good if it holds the closing delimiter. -/
def IsOrdinary (mode : Mode) (line : Line) : Prop :=
  match mode.open? with
  | some quote => occursIn quote.text line = true → (nextLine mode line).open? = none
  | none => mode = .code ∧ Plain .code 0 line

instance (mode : Mode) (line : Line) : Decidable (IsOrdinary mode line) :=
  match mode with
  | .code | .comment | .short _ _ => inferInstanceAs (Decidable (_ ∧ Plain .code 0 line))
  | .long quote _ => inferInstanceAs (Decidable (occursIn quote.text line = true → _ = none))

theorem follows_of_isOrdinary (mode : Mode) (line : Line) (h : IsOrdinary mode line) :
    Follows mode line := by
  cases hmode : mode.open? with
  | some quote =>
      rw [IsOrdinary, hmode] at h
      exact (follows_of_open hmode).2 h
  | none =>
      rw [IsOrdinary, hmode] at h
      obtain ⟨rfl, hplain⟩ := h
      exact (follows_of_not_open hmode).2
        ⟨counts_of_plain hplain .double, fun _ => counts_of_plain hplain .single⟩

end Lexer

/-! ## Sources -/

open Lexer

/-- **Where strings are followed.**  Behind every front of a source the machine is in the state of
the lexer if and only if each line is followed; then it marks exactly the lines whose first
character is inside a triple quoted string.  Lines without a misleading mark, and lines that close
a string for good, are followed. -/
theorem triple_quotes_followed_iff (lines : List Line) :
    (EachLine Follows .code lines ↔ ∀ front back, lines = front ++ back →
      StringState.after none front = (after .code front).open?) ∧
    (EachLine Follows .code lines → insideString none lines = insideLiteral .code lines) ∧
    (EachLine IsOrdinary .code lines → EachLine Follows .code lines) :=
  ⟨eachLine_follows_iff .code lines, insideString_eq, EachLine.imp follows_of_isOrdinary⟩

/-- Triple quotes in a comment and in a string, other quotes in a triple quoted string, and a string
over three lines. -/
def ordinaryLines : List Line :=
  ["x = 1  # \"\"\"", "q = '\"\"\"'", "d = \"\"\"it's\"\"\"", "t = '''", "a # \"b\"", "'''", "y = 1"].map
    String.toList

theorem insideString_ordinaryLines :
    EachLine IsOrdinary .code ordinaryLines ∧
      insideString none ordinaryLines = insideLiteral .code ordinaryLines ∧
      insideLiteral .code ordinaryLines = [false, false, false, false, true, true, false] := by
  have h : EachLine IsOrdinary .code ordinaryLines := by
    decide
  have hthree := triple_quotes_followed_iff ordinaryLines
  exact ⟨h, hthree.2.1 (hthree.2.2 h), by decide⟩

/-- A lone quote within a string on one line, with a number sign behind it. -/
def loneQuote : String := "x = \"\"\"a\"b # c\"\"\"\ny = 1"

def closedAndOpened : List Line :=
  ["x = \"\"\"a", "b\"\"\" + \"\"\"c", "d\"\"\"", "y = 1"].map String.toList

theorem triple_quotes_not_followed :
    insideString none (linesOf loneQuote) = [false, true] ∧
      insideLiteral .code (linesOf loneQuote) = [false, false] ∧
      "y" ∉ (analyze loneQuote).declaredVars ∧
      insideString none closedAndOpened = [false, true, false, true] ∧
      insideLiteral .code closedAndOpened = [false, true, true, false] := by
  decide

end CodeSurvey.Python
