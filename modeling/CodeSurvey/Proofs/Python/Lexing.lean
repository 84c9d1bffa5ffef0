/-
# Python's strings

Python reads a source character by character (`Lexer.read`): three quotation marks open a string
that goes on over lines, the first three unescaped marks of its own kind close it, and what is
within it, within a string on one line or within a comment opens nothing.  The machine that the
scan follows such strings with reads whole lines instead.  Outside strings it counts triple quotes
on the masked line; inside it only looks for the closing one.

The two agree on a source exactly if each line is followed (`Lexer.Follows`): the count has the
parity of the delimiters that are there, and a line that holds the closing delimiter leaves nothing
open.
-/
import Mathlib.Tactic.Tauto
import CodeSurvey.Proofs.Python.Strings

namespace CodeSurvey.Python

open Text

/-! ## Quotation marks -/

def TripleQuote.mark : TripleQuote → Char
  | double => '"'
  | single => '\''

theorem TripleQuote.text_eq (quote : TripleQuote) :
    quote.text = [quote.mark, quote.mark, quote.mark] := by
  cases quote <;> rfl

theorem TripleQuote.isQuote_mark (quote : TripleQuote) :
    Masking.isQuote .hash quote.mark = true := by
  cases quote <;> rfl

theorem TripleQuote.mark_inj {quote quote' : TripleQuote} :
    quote.mark = quote'.mark ↔ quote = quote' := by
  cases quote <;> cases quote' <;> decide

theorem TripleQuote.mark_ne (quote : TripleQuote) :
    quote.mark ≠ '\\' ∧ quote.mark ≠ '#' ∧ quote.mark ≠ ' ' := by
  cases quote <;> decide

def quoteOf? (c : Char) : Option TripleQuote :=
  if c = '"' then some .double else if c = '\'' then some .single else none

theorem quoteOf?_eq_some_iff {c : Char} {quote : TripleQuote} :
    quoteOf? c = some quote ↔ c = quote.mark := by
  unfold quoteOf?
  cases quote with
  | double =>
      by_cases hc : c = '"'
      · simp [hc, TripleQuote.mark]
      · simp [hc, TripleQuote.mark]
  | single =>
      by_cases hc : c = '"'
      · simp [hc, TripleQuote.mark]
      · simp [hc, TripleQuote.mark]

/-! ## The lexer -/

namespace Lexer

/-- What a character is read within. -/
inductive Mode where
  | code
  | comment
  /-- A string on one line. -/
  | short (quote : TripleQuote) (escaped : Bool)
  /-- A string between triple quotes. -/
  | long (quote : TripleQuote) (escaped : Bool)
deriving DecidableEq, Repr

/-- The triple quote that is open. -/
def Mode.open? : Mode → StringState
  | .long quote _ => some quote
  | _ => none

/-- Whether a mark in front of a text is the first of three. -/
def isTriple (quote : TripleQuote) (rest : List Char) : Bool :=
  [quote.mark, quote.mark].isPrefixOf rest

/-- Read a character of code.  The second result is the delimiter that begins with it, if one
does. -/
def readCode (c : Char) (rest : List Char) : Mode × Option TripleQuote :=
  match quoteOf? c with
  | some quote =>
    if isTriple quote rest then (.long quote false, some quote) else (.short quote false, none)
  | none => (if c = '#' then .comment else .code, none)

def readShort (quote : TripleQuote) (escaped : Bool) (c : Char) : Mode :=
  if escaped then .short quote false
  else if c = '\\' then .short quote true
  else if c = quote.mark then .code
  else .short quote false

def readLong (quote : TripleQuote) (escaped : Bool) (c : Char) (rest : List Char) :
    Mode × Option TripleQuote :=
  if escaped then (.long quote false, none)
  else if c = '\\' then (.long quote true, none)
  else if c = quote.mark ∧ isTriple quote rest = true then (.code, some quote)
  else (.long quote false, none)

/-- Read one character in front of the rest of its line. -/
def read (mode : Mode) (c : Char) (rest : List Char) : Mode × Option TripleQuote :=
  match mode with
  | .code => readCode c rest
  | .comment => (.comment, none)
  | .short quote escaped => (readShort quote escaped c, none)
  | .long quote escaped => readLong quote escaped c rest

/-- The delimiters on the rest of a line, in order, and the mode behind it.  The first `skip`
characters belong to the delimiter before them. -/
def lex (mode : Mode) (skip : Nat) : Line → List TripleQuote × Mode
  | [] => ([], mode)
  | c :: rest =>
    if skip > 0 then lex mode (skip - 1) rest
    else
      let (mode', delimiter) := read mode c rest
      let (delimiters, last) := lex mode' (if delimiter.isSome then 2 else 0) rest
      (delimiter.toList ++ delimiters, last)

/-- A line end closes comments, and strings on one line unless a backslash stands before it. -/
def Mode.atLineEnd : Mode → Mode
  | .short quote true => .short quote false
  | .long quote _ => .long quote false
  | _ => .code

def nextLine (mode : Mode) (line : Line) : Mode := (lex mode 0 line).2.atLineEnd

def after (mode : Mode) (lines : List Line) : Mode := lines.foldl nextLine mode

/-- For each line, whether its first character is inside a triple quoted string. -/
def insideLiteral (mode : Mode) : List Line → List Bool
  | [] => []
  | line :: rest => mode.open?.isSome :: insideLiteral (nextLine mode line) rest

/-- How often a delimiter stands on a line. -/
def passed (quote : TripleQuote) (mode : Mode) (line : Line) : Nat :=
  (lex mode 0 line).1.count quote

theorem open?_atLineEnd (mode : Mode) : mode.atLineEnd.open? = mode.open? := by
  cases mode with
  | code | comment | long _ _ => rfl
  | short quote escaped => cases escaped <;> rfl

/-! ## Delimiters -/

/-- What reading a character does to the string that is open: nothing, or it is opened or closed by
its delimiter. -/
inductive Turn (c : Char) (rest : List Char) (mode : Mode) : Mode × Option TripleQuote → Prop
  | stays {mode' : Mode} : mode'.open? = mode.open? → Turn c rest mode (mode', none)
  | opens {quote : TripleQuote} : mode = .code → c = quote.mark → isTriple quote rest = true →
      Turn c rest mode (.long quote false, some quote)
  | closes {quote : TripleQuote} : mode = .long quote false → c = quote.mark →
      isTriple quote rest = true → Turn c rest mode (.code, some quote)

theorem turn_read (mode : Mode) (c : Char) (rest : List Char) :
    Turn c rest mode (read mode c rest) := by
  cases mode with
  | code =>
      unfold read readCode
      cases hc : quoteOf? c with
      | none =>
          refine .stays ?_
          split <;> rfl
      | some quote =>
          by_cases htriple : isTriple quote rest = true
          · simp only [htriple, if_true]
            exact .opens rfl (quoteOf?_eq_some_iff.1 hc) htriple
          · simp only [htriple, Bool.false_eq_true, if_false]
            exact .stays rfl
  | comment => exact .stays rfl
  | short quote escaped =>
      refine .stays ?_
      unfold readShort
      repeat' split
      all_goals rfl
  | long quote escaped =>
      show Turn c rest _ (readLong quote escaped c rest)
      unfold readLong
      split
      · exact .stays rfl
      · rename_i hescaped
        split
        · exact .stays rfl
        · split
          · rename_i hclose
            rw [Bool.not_eq_true] at hescaped
            rw [hescaped]
            exact .closes rfl hclose.1 hclose.2
          · exact .stays rfl

theorem Turn.open?_iff {c : Char} {rest : List Char} {mode : Mode}
    {result : Mode × Option TripleQuote} (h : Turn c rest mode result) (quote : TripleQuote) :
    result.1.open? = some quote ↔ ¬(mode.open? = some quote ↔ result.2 = some quote) := by
  cases h with
  | stays hopen => simp [hopen]
  | opens hmode _ _ => simp [hmode, Mode.open?]
  | closes hmode _ _ => simp [hmode, Mode.open?]

/-- On the rest of a line a string is opened or closed if its delimiter stands there an odd number
of times. -/
theorem open?_lex (mode : Mode) (skip : Nat) (line : Line) (quote : TripleQuote) :
    (lex mode skip line).2.open? = some quote ↔
      ¬(mode.open? = some quote ↔ (lex mode skip line).1.count quote % 2 = 1) := by
  induction line generalizing mode skip with
  | nil => simp [lex]
  | cons c rest ih =>
      rw [lex]
      split
      · exact ih mode (skip - 1)
      · have hturn := (turn_read mode c rest).open?_iff quote
        show (lex _ _ rest).2.open? = some quote ↔
          ¬(_ ↔ ((read mode c rest).2.toList ++ (lex _ _ rest).1).count quote % 2 = 1)
        rw [List.count_append, ih, hturn]
        by_cases hdelimiter : (read mode c rest).2 = some quote
        · rw [hdelimiter, Option.toList_some, List.count_singleton_self]
          -- a delimiter turns over both the string that is open and the parity
          have hodd : ∀ n, (1 + n) % 2 = 1 ↔ ¬n % 2 = 1 := by omega
          rw [hodd]
          tauto
        · have hnone : (read mode c rest).2.toList.count quote = 0 :=
            List.count_eq_zero.2 (fun hmem => hdelimiter (Option.mem_toList.1 hmem))
          rw [hnone, Nat.zero_add]
          tauto

/-- Outside strings, a line opens the one whose delimiter stands there an odd number of times. -/
theorem open?_nextLine_iff {mode : Mode} (hmode : mode.open? = none) (line : Line)
    (quote : TripleQuote) :
    (nextLine mode line).open? = some quote ↔ passed quote mode line % 2 = 1 := by
  rw [nextLine, open?_atLineEnd, open?_lex, hmode, passed]
  simp

theorem isPrefixOf_of_isTriple {quote : TripleQuote} {rest : List Char}
    (h : isTriple quote rest = true) : quote.text.isPrefixOf (quote.mark :: rest) = true := by
  rw [quote.text_eq, List.isPrefixOf, beq_self_eq_true, Bool.true_and]
  exact h

/-- A string goes on over the rest of a line in which its delimiter does not occur. -/
theorem open?_lex_of_not_occursIn {mode : Mode} {quote : TripleQuote} {line : Line}
    (hmode : mode.open? = some quote) (h : occursIn quote.text line = false) :
    (lex mode 0 line).2.open? = some quote := by
  induction line generalizing mode with
  | nil => exact hmode
  | cons c rest ih =>
      rw [occursIn, Bool.or_eq_false_iff] at h
      rw [lex, if_neg (Nat.lt_irrefl 0)]
      have hturn := turn_read mode c rest
      generalize read mode c rest = result at hturn ⊢
      cases hturn with
      | stays hopen => exact ih (hopen.trans hmode) h.2
      | opens hcode _ _ =>
          rw [hcode] at hmode
          cases hmode
      | closes hlong hc htriple =>
          rw [hlong] at hmode
          cases hmode
          rw [hc, isPrefixOf_of_isTriple htriple] at h
          cases h.1

/-! ## Lines that are followed -/

/-- The count of a triple quote on the masked line tells whether its delimiters are odd in number. -/
def Counts (quote : TripleQuote) (mode : Mode) (line : Line) : Prop :=
  leavesOpen (maskLine .hash line) quote = true ↔ passed quote mode line % 2 = 1

/-- What it takes for a line to be followed.  Outside strings the counts have to be right, the
second of them only where the first tells that nothing is opened.  Inside, a line that holds the
closing delimiter has to leave nothing open. -/
def Follows (mode : Mode) (line : Line) : Prop :=
  match mode.open? with
  | some quote => occursIn quote.text line = true → (nextLine mode line).open? = none
  | none => Counts .double mode line ∧
      (passed .double mode line % 2 ≠ 1 → Counts .single mode line)

theorem follows_of_open {mode : Mode} {quote : TripleQuote} (hmode : mode.open? = some quote)
    {line : Line} :
    Follows mode line ↔
      (occursIn quote.text line = true → (nextLine mode line).open? = none) := by
  rw [Follows, hmode]

theorem follows_of_not_open {mode : Mode} (hmode : mode.open? = none) {line : Line} :
    Follows mode line ↔ Counts .double mode line ∧
      (passed .double mode line % 2 ≠ 1 → Counts .single mode line) := by
  rw [Follows, hmode]

theorem openedBy_eq (line : Line) :
    openedBy line =
      if leavesOpen (maskLine .hash line) .double = true then some .double
      else if leavesOpen (maskLine .hash line) .single = true then some .single
      else none := by
  unfold openedBy
  cases hdouble : leavesOpen (maskLine .hash line) .double with
  | true => simp [hdouble]
  | false =>
      cases hsingle : leavesOpen (maskLine .hash line) .single with
      | true => simp [hdouble, hsingle]
      | false => simp [hdouble, hsingle]

/-- The machine goes over a line as the lexer does if and only if the line is followed. -/
theorem next_eq_iff (mode : Mode) (line : Line) :
    StringState.next mode.open? line = (nextLine mode line).open? ↔ Follows mode line := by
  cases hmode : mode.open? with
  | some quote =>
      rw [follows_of_open hmode]
      show (if occursIn quote.text line = true then none else some quote) = _ ↔ _
      by_cases hoccurs : occursIn quote.text line = true
      · rw [if_pos hoccurs]
        exact ⟨fun hnext _ => hnext.symm, fun hfollows => (hfollows hoccurs).symm⟩
      · have hopen : (nextLine mode line).open? = some quote := by
          rw [nextLine, open?_atLineEnd]
          exact open?_lex_of_not_occursIn hmode (Bool.not_eq_true _ ▸ hoccurs)
        rw [if_neg hoccurs]
        exact iff_of_true hopen.symm (fun h => absurd h hoccurs)
  | none =>
      rw [follows_of_not_open hmode]
      show openedBy line = _ ↔ _
      have hdouble := open?_nextLine_iff hmode line .double
      have hsingle := open?_nextLine_iff hmode line .single
      -- the string that is open behind the line tells which delimiters are odd in number
      rw [openedBy_eq, Counts, Counts, ne_eq, ← hdouble, ← hsingle]
      rcases (nextLine mode line).open? with _ | (_ | _) <;>
        cases leavesOpen (maskLine .hash line) .double <;>
        cases leavesOpen (maskLine .hash line) .single <;> simp

def EachLine (p : Mode → Line → Prop) (mode : Mode) : List Line → Prop
  | [] => True
  | line :: rest => p mode line ∧ EachLine p (nextLine mode line) rest

instance decidableEachLine (p : Mode → Line → Prop) [∀ mode line, Decidable (p mode line)] :
    (mode : Mode) → (lines : List Line) → Decidable (EachLine p mode lines)
  | _, [] => .isTrue trivial
  | mode, line :: rest =>
    have := decidableEachLine p (nextLine mode line) rest
    inferInstanceAs (Decidable (_ ∧ _))

theorem EachLine.imp {p q : Mode → Line → Prop} (hpq : ∀ mode line, p mode line → q mode line)
    {mode : Mode} {lines : List Line} (h : EachLine p mode lines) : EachLine q mode lines := by
  induction lines generalizing mode with
  | nil => exact trivial
  | cons line rest ih => exact ⟨hpq mode line h.1, ih h.2⟩

/-- The machine is in the state of the lexer behind every front of a source if and only if each
line is followed. -/
theorem eachLine_follows_iff (mode : Mode) (lines : List Line) :
    EachLine Follows mode lines ↔ ∀ front back, lines = front ++ back →
      mode.open?.after front = (after mode front).open? := by
  induction lines generalizing mode with
  | nil =>
      refine iff_of_true trivial (fun front back hlines => ?_)
      rw [(List.append_eq_nil_iff.1 hlines.symm).1]
      rfl
  | cons line rest ih =>
      constructor
      · rintro ⟨hfollows, hrest⟩ front back hlines
        cases front with
        | nil => rfl
        | cons first front =>
            obtain ⟨rfl, htail⟩ := List.cons.inj hlines
            show (mode.open?.next line).after front = (after (nextLine mode line) front).open?
            rw [(next_eq_iff mode line).2 hfollows]
            exact (ih _).1 hrest front back htail
      · intro h
        have hnext : mode.open?.next line = (nextLine mode line).open? := h [line] rest rfl
        refine ⟨(next_eq_iff mode line).1 hnext, (ih _).2 (fun front back hlines => ?_)⟩
        rw [← hnext]
        exact h (line :: front) back (by rw [hlines]; rfl)

theorem insideString_eq {mode : Mode} {lines : List Line} (h : EachLine Follows mode lines) :
    insideString mode.open? lines = insideLiteral mode lines := by
  induction lines generalizing mode with
  | nil => rfl
  | cons line rest ih =>
      rw [insideString, insideLiteral, (next_eq_iff mode line).2 h.1, ih h.2]
      rfl

end Lexer

end CodeSurvey.Python
