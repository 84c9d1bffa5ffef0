/-
# Pieces of a text and of its lines

What trimming, cutting and splitting leave of a text is a piece of it.  Lines are numbered from 1
(`LineAt`); a text stands on a line if it is a piece of that line (`OnLine`).  A line of a piece is
a piece of a line of the whole: further down by the newlines in front (`onLine_of_piece`).

Being a piece is the infix order of lists, which composes, so a text that went through several
hands is a piece of where it came from by one chain.  Where the place of a piece matters too, and
not only that it is one, texts are cut with the cut in view: what stands in front, the piece, and
what stands behind.
-/
import Mathlib.Data.List.TakeWhile
import CodeSurvey.Text.Lines

namespace CodeSurvey.Text

/-! ## What occurs in a text -/

theorem occursIn_iff_isInfix {piece text : List Char} :
    occursIn piece text = true ↔ piece <:+: text := by
  induction text with
  | nil => rw [occursIn, List.isEmpty_iff, List.infix_nil]
  | cons c text ih =>
      rw [occursIn, Bool.or_eq_true, List.isPrefixOf_iff_prefix, ih, List.infix_cons_iff]

theorem occurrences_pos_iff {piece text : List Char} (hpiece : piece ≠ []) :
    0 < occurrences piece text ↔ piece <:+: text := by
  induction text with
  | nil => exact iff_of_false (Nat.lt_irrefl 0) (fun h => hpiece (List.infix_nil.1 h))
  | cons c text ih =>
      rw [List.infix_cons_iff, ← ih, ← List.isPrefixOf_iff_prefix, occurrences, countFrom,
        if_neg (Nat.lt_irrefl 0)]
      split
      · rename_i hhere
        exact iff_of_true (Nat.add_pos_left Nat.one_pos _) (Or.inl hhere)
      · rename_i hhere
        exact ⟨Or.inr, fun h => h.resolve_left hhere⟩

/-! ## What is left of a text -/

theorem trimEndOf_isPrefix (p : Char → Bool) (text : List Char) : trimEndOf p text <+: text := by
  have h := List.reverse_prefix.2 (List.dropWhile_suffix p (l := text.reverse))
  rwa [List.reverse_reverse] at h

theorem trimEndOf_append (p : Char → Bool) (text : List Char) :
    ∃ gap, text = trimEndOf p text ++ gap ∧ ∀ c ∈ gap, p c = true := by
  refine ⟨(text.reverse.takeWhile p).reverse, ?_, fun c hc => ?_⟩
  · rw [trimEndOf, ← List.reverse_append, List.takeWhile_append_dropWhile, List.reverse_reverse]
  · exact List.mem_takeWhile_imp (List.mem_reverse.1 hc)

theorem getLast?_trimEndOf (p : Char → Bool) (text : List Char) :
    (trimEndOf p text).getLast?.any p = false := by
  have hnot := List.head?_dropWhile_not p text.reverse
  rw [trimEndOf, List.getLast?_reverse]
  cases hhead : (text.reverse.dropWhile p).head? with
  | none => rfl
  | some c =>
      rw [hhead] at hnot
      exact hnot

/-- Trimming the end does not come past a character that is kept. -/
theorem trimEndOf_append_of_last {p : Char → Bool} {front : List Char}
    (hfront : front.getLast?.any p = false) (back : List Char) :
    trimEndOf p (front ++ back) = front ++ trimEndOf p back := by
  have hreverse : front.reverse.dropWhile p = front.reverse := by
    cases hlast : front.reverse with
    | nil => rfl
    | cons c others =>
        rw [List.getLast?_eq_head?_reverse, hlast] at hfront
        have hc : p c = false := hfront
        exact List.dropWhile_cons_of_neg (Bool.eq_false_iff.1 hc)
  have hdrop : (back.reverse ++ front.reverse).dropWhile p =
      back.reverse.dropWhile p ++ front.reverse := by
    rw [List.dropWhile_append, hreverse]
    split
    · rename_i hnil
      rw [List.isEmpty_iff.1 hnil, List.nil_append]
    · rfl
  rw [trimEndOf, List.reverse_append, hdrop, List.reverse_append, List.reverse_reverse]
  rfl

theorem trimEndOf_eq_nil {p : Char → Bool} {text : List Char} (h : ∀ c ∈ text, p c = true) :
    trimEndOf p text = [] := by
  have hnil : text.reverse.dropWhile p = [] :=
    List.dropWhile_eq_nil_iff.2 (fun c hc => h c (List.mem_reverse.1 hc))
  rw [trimEndOf, hnil]
  rfl

theorem takeWhile_isPrefix_takeWhile (p : Char → Bool) {front text : List Char}
    (h : front <+: text) : front.takeWhile p <+: text.takeWhile p := by
  obtain ⟨back, rfl⟩ := h
  rw [List.takeWhile_append]
  split
  · exact (List.takeWhile_prefix p).trans (List.prefix_append front _)
  · exact List.prefix_rfl

theorem trim_between {front body gap : List Char} (hfront : ∀ c ∈ front, isBlank c = true)
    (hgap : ∀ c ∈ gap, isBlank c = true) (hfirst : body.head?.any isBlank = false)
    (hlast : body.getLast?.any isBlank = false) : trim (front ++ (body ++ gap)) = body := by
  have hstart : trimStartOf isBlank (front ++ (body ++ gap)) =
      trimStartOf isBlank (body ++ gap) := List.dropWhile_append_of_pos hfront
  cases body with
  | nil =>
      have hnil : trimStartOf isBlank gap = [] := List.dropWhile_eq_nil_iff.2 hgap
      rw [trim, hstart, List.nil_append, hnil]
      rfl
  | cons c body =>
      have hc : isBlank c = false := hfirst
      have hkept : trimStartOf isBlank (c :: body ++ gap) = c :: body ++ gap :=
        List.dropWhile_cons_of_neg (Bool.eq_false_iff.1 hc)
      rw [trim, hstart, hkept, trimEndOf_append_of_last hlast, trimEndOf_eq_nil hgap,
        List.append_nil]

theorem trim_isInfix (text : List Char) : trim text <:+: text :=
  (trimEndOf_isPrefix isBlank _).isInfix.trans (List.dropWhile_suffix isBlank).isInfix

/-- What trimming keeps ends in the last character that is not of the class. -/
theorem getLast?_trimEndOf_eq_find? (p : Char → Bool) (text : List Char) :
    (trimEndOf p text).getLast? = text.reverse.find? (fun c => !p c) := by
  rw [trimEndOf, List.getLast?_reverse, List.find?_not_eq_head?_dropWhile]

theorem getLast?_trim (text : List Char) :
    (trim text).getLast? = text.reverse.find? (fun c => !isBlank c) := by
  have hblank : (text.takeWhile isBlank).reverse.find? (fun c => !isBlank c) = none := by
    refine List.find?_eq_none.2 (fun c hc => ?_)
    rw [List.mem_takeWhile_imp (List.mem_reverse.1 hc)]
    exact Bool.false_ne_true
  have hsplit : text.reverse =
      (trimStartOf isBlank text).reverse ++ (text.takeWhile isBlank).reverse := by
    rw [trimStartOf, ← List.reverse_append, List.takeWhile_append_dropWhile]
  rw [trim, getLast?_trimEndOf_eq_find?, hsplit, List.find?_append, hblank, Option.or_none]

/-- Trimming leaves nothing just of blanks. -/
theorem isEmpty_trim (text : List Char) : (trim text).isEmpty = isBlankText text := by
  rw [Bool.eq_iff_iff, List.isEmpty_iff, ← List.getLast?_eq_none_iff, getLast?_trim,
    List.find?_eq_none, isBlankText, List.all_eq_true]
  simp only [List.mem_reverse, Bool.not_eq_true', Bool.not_eq_false]

theorem before_isInfix (p : Char → Bool) (text : List Char) : before p text <:+: text :=
  (List.takeWhile_prefix _).isInfix

/-- Where the first character stands that is not of a class, a text is cut in one way only. -/
theorem free_append_inj {p : Char → Bool} {free other back rest : List Char} {c d : Char}
    (hfree : ∀ c ∈ free, p c = true) (hother : ∀ c ∈ other, p c = true)
    (hc : p c = false) (hd : p d = false)
    (h : free ++ c :: back = other ++ d :: rest) : free = other ∧ c = d ∧ back = rest := by
  have hfirst := congrArg (List.takeWhile p) h
  rw [List.takeWhile_append_of_pos hfree, List.takeWhile_append_of_pos hother,
    List.takeWhile_cons_of_neg (Bool.eq_false_iff.1 hc),
    List.takeWhile_cons_of_neg (Bool.eq_false_iff.1 hd), List.append_nil, List.append_nil] at hfirst
  subst hfirst
  obtain ⟨rfl, rfl⟩ := List.cons.inj (List.append_cancel_left h)
  exact ⟨rfl, rfl, rfl⟩

theorem splitWhere_pieces (p : Char → Bool) (text : List Char) :
    ∃ first others, splitWhere p text = first :: others ∧ first <+: text ∧
      ∀ piece ∈ others, piece <:+: text := by
  induction text with
  | nil => exact ⟨[], [], rfl, List.nil_prefix, fun _ h => absurd h List.not_mem_nil⟩
  | cons c text ih =>
      obtain ⟨first, others, hsplit, hfirst, hothers⟩ := ih
      have hbehind : ∀ piece ∈ others, piece <:+: c :: text :=
        fun piece hpiece => (hothers piece hpiece).trans (List.suffix_cons c text).isInfix
      rw [splitWhere, hsplit]
      split
      · refine ⟨[], first :: others, rfl, List.nil_prefix, List.forall_mem_cons.2 ⟨?_, hbehind⟩⟩
        exact hfirst.isInfix.trans (List.suffix_cons c text).isInfix
      · exact ⟨c :: first, others, rfl, List.cons_prefix_cons.2 ⟨rfl, hfirst⟩, hbehind⟩

theorem isInfix_of_mem_splitWhere {p : Char → Bool} {text piece : List Char}
    (h : piece ∈ splitWhere p text) : piece <:+: text := by
  obtain ⟨first, others, hsplit, hfirst, hothers⟩ := splitWhere_pieces p text
  rw [hsplit] at h
  rcases List.mem_cons.1 h with rfl | h
  · exact hfirst.isInfix
  · exact hothers piece h

theorem splitWhere_append_cons {p : Char → Bool} {c : Char} (hc : p c = true)
    (front back : List Char) :
    splitWhere p (front ++ c :: back) = splitWhere p front ++ splitWhere p back := by
  induction front with
  | nil =>
      rw [List.nil_append, splitWhere, splitWhere, if_pos hc]
      rfl
  | cons d front ih =>
      rw [List.cons_append, splitWhere, splitWhere, ih]
      split
      · rfl
      · obtain ⟨first, others, hsplit, -⟩ := splitWhere_pieces p front
        rw [hsplit]
        rfl

theorem splitWhere_append_of_free {p : Char → Bool} {front : List Char}
    (hfront : ∀ c ∈ front, p c = false) {back first : List Char} {others : List (List Char)}
    (hback : splitWhere p back = first :: others) :
    splitWhere p (front ++ back) = (front ++ first) :: others := by
  induction front with
  | nil => exact hback
  | cons c front ih =>
      obtain ⟨hc, hothers⟩ := List.forall_mem_cons.1 hfront
      rw [List.cons_append, splitWhere, if_neg (Bool.eq_false_iff.1 hc), ih hothers]
      rfl

theorem splitWhere_of_free {p : Char → Bool} {text : List Char}
    (h : ∀ c ∈ text, p c = false) : splitWhere p text = [text] := by
  have hsplit : splitWhere p (text ++ []) = [text ++ []] := splitWhere_append_of_free h rfl
  rwa [List.append_nil] at hsplit

theorem splitWhere_ne_nil (p : Char → Bool) (text : List Char) : splitWhere p text ≠ [] := by
  obtain ⟨first, others, hsplit, -⟩ := splitWhere_pieces p text
  rw [hsplit]
  exact List.cons_ne_nil first others

/-- Of the pieces of a text only the last goes on into what stands behind it. -/
theorem splitWhere_append (p : Char → Bool) (front : List Char) :
    ∃ pieces last, splitWhere p front = pieces ++ [last] ∧
      ∀ back, ∃ first others, splitWhere p back = first :: others ∧
        splitWhere p (front ++ back) = pieces ++ (last ++ first) :: others := by
  induction front with
  | nil =>
      refine ⟨[], [], rfl, fun back => ?_⟩
      obtain ⟨first, others, hback, -⟩ := splitWhere_pieces p back
      exact ⟨first, others, hback, hback⟩
  | cons c front ih =>
      obtain ⟨pieces, last, hfront, hlonger⟩ := ih
      by_cases hc : p c = true
      · refine ⟨[] :: pieces, last, ?_, fun back => ?_⟩
        · rw [splitWhere, if_pos hc, hfront]
          rfl
        · obtain ⟨first, others, hback, hboth⟩ := hlonger back
          refine ⟨first, others, hback, ?_⟩
          rw [List.cons_append, splitWhere, if_pos hc, hboth]
          rfl
      · -- the character belongs to the first piece, which may be the last one
        cases pieces with
        | nil =>
            refine ⟨[], c :: last, ?_, fun back => ?_⟩
            · rw [splitWhere, if_neg hc, hfront]
              rfl
            · obtain ⟨first, others, hback, hboth⟩ := hlonger back
              refine ⟨first, others, hback, ?_⟩
              rw [List.cons_append, splitWhere, if_neg hc, hboth]
              rfl
        | cons piece pieces =>
            refine ⟨(c :: piece) :: pieces, last, ?_, fun back => ?_⟩
            · rw [splitWhere, if_neg hc, hfront]
              rfl
            · obtain ⟨first, others, hback, hboth⟩ := hlonger back
              refine ⟨first, others, hback, ?_⟩
              rw [List.cons_append, splitWhere, if_neg hc, hboth]
              rfl

theorem splitWhere_eq_before_cons (p : Char → Bool) (text : List Char) :
    splitWhere p text = before p text :: (splitWhere p text).tail := by
  induction text with
  | nil => rfl
  | cons c text ih =>
      rw [splitWhere, before]
      by_cases hc : p c = true
      · rw [if_pos hc, List.takeWhile_cons_of_neg (by simpa using hc)]
        rfl
      · rw [if_neg hc, List.takeWhile_cons_of_pos (by simpa using hc), ih]
        rfl

theorem splitWhere_congr {p q : Char → Bool} {text : List Char} (h : ∀ c ∈ text, p c = q c) :
    splitWhere p text = splitWhere q text := by
  induction text with
  | nil => rfl
  | cons c text ih =>
      obtain ⟨hc, hothers⟩ := List.forall_mem_cons.1 h
      rw [splitWhere, splitWhere, hc, ih hothers]

theorem splitAt_ne_nil (sep : Char) (text : List Char) : splitAt sep text ≠ [] :=
  splitWhere_ne_nil _ text

theorem splitAt_free {sep : Char} {text : List Char} (h : sep ∉ text) :
    splitAt sep text = [text] := by
  refine splitWhere_of_free (fun c hc => ?_)
  rw [beq_eq_false_iff_ne]
  rintro rfl
  exact h hc

theorem splitAt_append_cons {sep : Char} {text : List Char} (h : sep ∉ text) (rest : List Char) :
    splitAt sep (text ++ sep :: rest) = text :: splitAt sep rest := by
  have hfirst : splitWhere (· == sep) text = [text] := splitAt_free h
  rw [splitAt, splitWhere_append_cons (p := (· == sep)) (beq_self_eq_true sep), hfirst]
  rfl

/-- What does not separate stands in a piece. -/
theorem exists_mem_splitWhere {p : Char → Bool} {c : Char} {text : List Char} (hc : p c = false)
    (hmem : c ∈ text) : ∃ piece ∈ splitWhere p text, c ∈ piece := by
  obtain ⟨front, back, rfl⟩ := List.append_of_mem hmem
  obtain ⟨pieces, last, -, hlonger⟩ := splitWhere_append p front
  obtain ⟨first, others, hback, hboth⟩ := hlonger (c :: back)
  obtain ⟨next, more, hnext, -⟩ := splitWhere_pieces p back
  rw [splitWhere, if_neg (Bool.eq_false_iff.1 hc), hnext, consFirst] at hback
  refine ⟨last ++ first, by rw [hboth]; exact List.mem_append_right _ List.mem_cons_self, ?_⟩
  rw [← (List.cons.inj hback).1]
  exact List.mem_append_right _ List.mem_cons_self

/-- What stands behind a separator stands in a later piece than the first. -/
theorem exists_mem_tail_splitAt {sep c : Char} {front : List Char} (hfront : sep ∈ front)
    (hc : c ≠ sep) (back : List Char) :
    ∃ piece ∈ (splitAt sep (front ++ c :: back)).tail, c ∈ piece := by
  obtain ⟨early, late, rfl, hearly⟩ := List.eq_append_cons_of_mem hfront
  rw [List.append_assoc, List.cons_append, splitAt_append_cons hearly]
  exact exists_mem_splitWhere (beq_false_of_ne hc) (List.mem_append_right _ List.mem_cons_self)

theorem consFirst_eq_modifyHead {c : Char} {pieces : List (List Char)} (h : pieces ≠ []) :
    consFirst c pieces = pieces.modifyHead (c :: ·) := by
  cases pieces with
  | nil => exact absurd rfl h
  | cons piece pieces => rfl

theorem splitWhere_eq_splitOnP (p : Char → Bool) (text : List Char) :
    splitWhere p text = text.splitOnP p := by
  induction text with
  | nil => rfl
  | cons c text ih =>
      rw [splitWhere, List.splitOnP_cons_eq_if_modifyHead, ih,
        consFirst_eq_modifyHead (List.splitOnP_ne_nil p text)]

/-- Pieces may be cut again: this cuts at the characters of either class. -/
theorem flatMap_splitWhere (p q : Char → Bool) (text : List Char) :
    (splitWhere p text).flatMap (splitWhere q) = splitWhere (fun c => p c || q c) text := by
  induction text with
  | nil => rfl
  | cons c text ih =>
      obtain ⟨first, others, hpieces, -⟩ := splitWhere_pieces p text
      obtain ⟨inner, more, hinner, -⟩ := splitWhere_pieces q first
      rw [splitWhere, splitWhere]
      rw [hpieces, List.flatMap_cons, hinner] at ih
      cases hp : p c with
      | true =>
          rw [if_pos rfl, Bool.true_or, if_pos rfl, hpieces, List.flatMap_cons, List.flatMap_cons,
            hinner, ih]
          rfl
      | false =>
          rw [if_neg Bool.false_ne_true, hpieces, consFirst, List.flatMap_cons, splitWhere, hinner,
            Bool.false_or, ← ih]
          cases hq : q c with
          | true => rfl
          | false => rfl

theorem splitAt_eq_splitOn (sep : Char) (text : List Char) : splitAt sep text = text.splitOn sep :=
  splitWhere_eq_splitOnP _ text

/-! ## Numbered lines -/

/-- The line of a number, counted from 1. -/
def LineAt (lines : List Line) (n : Nat) (line : Line) : Prop :=
  1 ≤ n ∧ lines[n - 1]? = some line

def IsLine (lines : List Line) (n : Nat) : Prop := 1 ≤ n ∧ n ≤ lines.length

def OnLine (lines : List Line) (n : Nat) (piece : List Char) : Prop :=
  ∃ line, LineAt lines n line ∧ piece <:+: line

section

variable {lines : List Line} {n : Nat} {line : Line} {piece : List Char}

theorem LineAt.isLine (h : LineAt lines n line) : IsLine lines n := by
  obtain ⟨hn, hline⟩ := h
  have hlt := (List.getElem?_eq_some_iff.1 hline).1
  exact ⟨hn, by omega⟩

theorem LineAt.unique {other : Line} (h : LineAt lines n line) (h' : LineAt lines n other) :
    line = other :=
  Option.some.inj (h.2.symm.trans h'.2)

theorem LineAt.onLine (h : LineAt lines n line) (hpiece : piece <:+: line) : OnLine lines n piece :=
  ⟨line, h, hpiece⟩

theorem OnLine.isLine (h : OnLine lines n piece) : IsLine lines n := by
  obtain ⟨line, hline, -⟩ := h
  exact hline.isLine

theorem OnLine.of_isInfix {inner : List Char} (h : OnLine lines n piece)
    (hinner : inner <:+: piece) : OnLine lines n inner := by
  obtain ⟨line, hline, hpiece⟩ := h
  exact ⟨line, hline, hinner.trans hpiece⟩

end

/-- The lines of a source from a number on. -/
def LinesFrom (lines : List Line) (n : Nat) (below : List Line) : Prop :=
  1 ≤ n ∧ lines.drop (n - 1) = below

namespace LinesFrom

variable {lines below : List Line} {n : Nat} {line : Line}

theorem first (lines : List Line) : LinesFrom lines 1 lines :=
  ⟨Nat.le_refl 1, rfl⟩

theorem drop (h : LinesFrom lines n below) (k : Nat) : LinesFrom lines (n + k) (below.drop k) := by
  obtain ⟨hn, rfl⟩ := h
  refine ⟨Nat.le_add_right_of_le hn, ?_⟩
  rw [List.drop_drop, Nat.sub_add_comm hn]

theorem next (h : LinesFrom lines n (line :: below)) : LinesFrom lines (n + 1) below :=
  h.drop 1

theorem lineAt_of_getElem? (h : LinesFrom lines n below) {i : Nat} (hline : below[i]? = some line) :
    LineAt lines (n + i) line := by
  obtain ⟨hn, rfl⟩ := h
  rw [List.getElem?_drop] at hline
  exact ⟨Nat.le_add_right_of_le hn, by rwa [Nat.sub_add_comm hn]⟩

theorem lineAt (h : LinesFrom lines n (line :: below)) : LineAt lines n line :=
  h.lineAt_of_getElem? (List.getElem?_cons_zero)

end LinesFrom

theorem eachLine_append {α : Type} (rule : Nat → Line → List α) (number : Nat)
    (front back : List Line) :
    eachLine rule number (front ++ back) =
      eachLine rule number front ++ eachLine rule (number + front.length) back := by
  induction front generalizing number with
  | nil => rfl
  | cons line front ih =>
      rw [List.cons_append, eachLine, eachLine, ih, List.append_assoc, List.length_cons,
        Nat.add_right_comm, Nat.add_assoc]

theorem mem_eachLine {α : Type} {rule : Nat → Line → List α} {number : Nat} {lines : List Line}
    {a : α} (h : a ∈ eachLine rule number lines) :
    ∃ i line, lines[i]? = some line ∧ a ∈ rule (number + i) line := by
  induction lines generalizing number with
  | nil => cases h
  | cons line lines ih =>
      rcases List.mem_append.1 h with h | h
      · exact ⟨0, line, rfl, h⟩
      · obtain ⟨i, other, hother, ha⟩ := ih h
        exact ⟨i + 1, other, hother, by rwa [Nat.add_assoc, Nat.add_comm 1] at ha⟩

theorem lineAt_of_mem_eachLine {α : Type} {rule : Nat → Line → List α} {lines : List Line}
    {a : α} (h : a ∈ eachLine rule 1 lines) :
    ∃ n line, LineAt lines n line ∧ a ∈ rule n line := by
  obtain ⟨i, line, hline, ha⟩ := mem_eachLine h
  exact ⟨1 + i, line, (LinesFrom.first lines).lineAt_of_getElem? hline, ha⟩

/-! ## Lines of a piece -/

theorem splitLines_ne_nil (text : List Char) : splitLines text ≠ [] := by
  obtain ⟨first, others, hsplit, -⟩ := splitWhere_pieces (· == '\n') text
  rw [splitLines, splitAt, hsplit]
  exact List.cons_ne_nil _ _

theorem splitLines_newline (text : List Char) : splitLines ('\n' :: text) = [] :: splitLines text :=
  rfl

theorem splitLines_cons {c : Char} (hc : c ≠ '\n') (text : List Char) :
    splitLines (c :: text) = consFirst c (splitLines text) := by
  rw [splitLines, splitAt, splitWhere, if_neg (by simpa using hc)]
  rfl

theorem splitLines_plain {line : Line} (h : '\n' ∉ line) : splitLines line = [line] :=
  splitAt_free h

theorem splitLines_plain_newline {line : Line} (h : '\n' ∉ line) (text : List Char) :
    splitLines (line ++ '\n' :: text) = line :: splitLines text :=
  splitAt_append_cons h text

theorem getElem?_consFirst_zero {c : Char} {pieces : List Line} {line : Line}
    (h : pieces[0]? = some line) : (consFirst c pieces)[0]? = some (c :: line) := by
  cases pieces with
  | nil => cases h
  | cons piece pieces =>
      rw [← Option.some.inj h]
      rfl

theorem getElem?_consFirst_succ {c : Char} {pieces : List Line} (h : pieces ≠ []) (i : Nat) :
    (consFirst c pieces)[i + 1]? = pieces[i + 1]? := by
  cases pieces with
  | nil => exact absurd rfl h
  | cons piece pieces => rfl

theorem length_splitLines (text : List Char) :
    (splitLines text).length = text.count '\n' + 1 := by
  induction text with
  | nil => rfl
  | cons c text ih =>
      by_cases hc : c = '\n'
      · rw [hc, splitLines_newline, List.length_cons, ih, List.count_cons_self]
      · have hlength : ∀ pieces : List Line, pieces ≠ [] →
            (consFirst c pieces).length = pieces.length := fun pieces hpieces => by
          cases pieces with
          | nil => exact absurd rfl hpieces
          | cons piece pieces => rfl
        rw [splitLines_cons hc, hlength _ (splitLines_ne_nil text), ih,
          List.count_cons_of_ne hc]

theorem line_of_append_front {text : List Char} {i : Nat} {line : Line}
    (h : (splitLines text)[i]? = some line) (front : List Char) :
    ∃ whole, (splitLines (front ++ text))[front.count '\n' + i]? = some whole ∧
      line <:+ whole := by
  induction front with
  | nil => exact ⟨line, by rwa [List.count_nil, Nat.zero_add], List.suffix_refl line⟩
  | cons c front ih =>
      obtain ⟨whole, hwhole, hline⟩ := ih
      by_cases hc : c = '\n'
      · refine ⟨whole, ?_, hline⟩
        rwa [hc, List.cons_append, splitLines_newline, List.count_cons_self, Nat.add_right_comm,
          List.getElem?_cons_succ]
      · rw [List.cons_append, splitLines_cons hc, List.count_cons_of_ne hc]
        cases hi : front.count '\n' + i with
        | zero =>
            rw [hi] at hwhole
            exact ⟨c :: whole, getElem?_consFirst_zero hwhole,
              hline.trans (List.suffix_cons c whole)⟩
        | succ j =>
            rw [hi] at hwhole
            exact ⟨whole, by rwa [getElem?_consFirst_succ (splitLines_ne_nil _)], hline⟩

theorem line_of_append_back {text : List Char} {i : Nat} {line : Line}
    (h : (splitLines text)[i]? = some line) (back : List Char) :
    ∃ whole, (splitLines (text ++ back))[i]? = some whole ∧ line <+: whole := by
  induction text generalizing i line with
  | nil =>
      cases i with
      | zero =>
          obtain ⟨first, others, hsplit, -⟩ := splitWhere_pieces (· == '\n') back
          rw [← Option.some.inj h]
          exact ⟨first, by rw [List.nil_append, splitLines, splitAt, hsplit]; rfl,
            List.nil_prefix⟩
      | succ i => cases h
  | cons c text ih =>
      by_cases hc : c = '\n'
      · rw [hc, splitLines_newline] at h
        rw [hc, List.cons_append, splitLines_newline]
        cases i with
        | zero => exact ⟨[], rfl, Option.some.inj h ▸ List.nil_prefix⟩
        | succ i => exact ih h
      · rw [splitLines_cons hc] at h
        rw [List.cons_append, splitLines_cons hc]
        cases i with
        | zero =>
            obtain ⟨first, others, hsplit, -⟩ := splitWhere_pieces (· == '\n') text
            have hfirst : (splitLines text)[0]? = some first := by
              rw [splitLines, splitAt, hsplit]
              rfl
            rw [getElem?_consFirst_zero hfirst] at h
            obtain ⟨whole, hwhole, hprefix⟩ := ih hfirst
            rw [← Option.some.inj h]
            exact ⟨c :: whole, getElem?_consFirst_zero hwhole,
              List.cons_prefix_cons.2 ⟨rfl, hprefix⟩⟩
        | succ i =>
            rw [getElem?_consFirst_succ (splitLines_ne_nil _)] at h ⊢
            exact ih h

/-- **A line of a piece stands on a line of the whole**, counted from the line that the piece
begins on. -/
theorem onLine_of_piece {front body back : List Char} {i : Nat} {line : Line}
    (h : (splitLines body)[i]? = some line) :
    OnLine (splitLines (front ++ body ++ back)) (front.count '\n' + 1 + i) line := by
  obtain ⟨wide, hwide, hsuffix⟩ := line_of_append_front h front
  obtain ⟨whole, hwhole, hprefix⟩ := line_of_append_back hwide back
  refine ⟨whole, ⟨by omega, ?_⟩, hsuffix.isInfix.trans hprefix.isInfix⟩
  rwa [Nat.add_right_comm, Nat.add_sub_cancel]

end CodeSurvey.Text
