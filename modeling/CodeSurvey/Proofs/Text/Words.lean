/-
# Blanks and words

No character is both blank and part of a word, and an identifier begins with a word character.  So
a word ends where blanks begin, and the other way round.  A stretch of blanks has nothing of a word
at either end.

Word characters are a table of ranges and blanks are few, so the blanks are counted out
(`blankCodes`) and looked up in the table one by one.  All else is stated of the neighbours of a
place: `head?` of the text behind it and `getLast?` of the text in front, since that is what an edge
of a word is told by.
-/
import CodeSurvey.Text.Chars
import CodeSurvey.Text.Word

namespace CodeSurvey.Text

/-- The blank characters by their numbers. -/
def blankCodes : List Nat :=
  [0x09, 0x0A, 0x0B, 0x0C, 0x0D, 0x20, 0x85, 0xA0, 0x1680, 0x2000, 0x2001, 0x2002, 0x2003, 0x2004,
    0x2005, 0x2006, 0x2007, 0x2008, 0x2009, 0x200A, 0x2028, 0x2029, 0x202F, 0x205F, 0x3000]

theorem mem_blankCodes {c : Char} (h : isBlank c = true) : c.toNat ∈ blankCodes := by
  simp only [isBlank] at h
  simp only [blankCodes, List.mem_cons, List.not_mem_nil, or_false]
  split at h
  · simp only [Bool.or_eq_true, Bool.and_eq_true, decide_eq_true_eq, beq_iff_eq] at h
    omega
  · simp only [Bool.or_eq_true, Bool.and_eq_true, decide_eq_true_eq, beq_iff_eq] at h
    omega

theorem not_isWordChar_of_isBlank {c : Char} (h : isBlank c = true) : isWordChar c = false := by
  have hall : ∀ n ∈ blankCodes, isWordChar (Char.ofNat n) = false := by decide +kernel
  have hc := hall c.toNat (mem_blankCodes h)
  rwa [Char.ofNat_toNat] at hc

theorem toNat_lt_of_isAlpha {c : Char} (h : c.isAlpha = true) : c.toNat < 0x80 := by
  rcases Bool.or_eq_true_iff.1 h with hupper | hlower
  · have hle : c.val ≤ 'Z'.val := (of_decide_eq_true hupper).2
    exact Nat.lt_of_le_of_lt (UInt32.le_iff_toNat_le.1 hle) (by decide)
  · have hboth : (decide (c.val ≥ 'a'.val) && decide (c.val ≤ 'z'.val)) = true := hlower
    have hle : c.val ≤ 'z'.val := of_decide_eq_true (Bool.and_eq_true_iff.1 hboth).2
    exact Nat.lt_of_le_of_lt (UInt32.le_iff_toNat_le.1 hle) (by decide)

theorem isWordChar_of_isNameStart {c : Char} (h : isNameStart c = true) : isWordChar c = true := by
  rw [isNameStart, Bool.or_eq_true] at h
  have hascii : c.toNat < 0x80 := by
    rcases h with halpha | hunderscore
    · exact toNat_lt_of_isAlpha halpha
    · rw [beq_iff_eq.1 hunderscore]
      decide
  rw [isWordChar, if_pos hascii, Char.isAlphanum, Bool.or_eq_true, Bool.or_eq_true]
  exact h.imp_left Or.inl

theorem not_isNameStart_of_isBlank {c : Char} (h : isBlank c = true) : isNameStart c = false := by
  rw [← Bool.not_eq_true]
  intro hstart
  have hword := isWordChar_of_isNameStart hstart
  rw [not_isWordChar_of_isBlank h] at hword
  cases hword

theorem not_isBlank_of_isWordChar {c : Char} (h : isWordChar c = true) : isBlank c = false := by
  rw [← Bool.not_eq_true]
  intro hblank
  rw [not_isWordChar_of_isBlank hblank] at h
  cases h

theorem any_getLast?_append_of_word {front name : List Char} (hname : name ≠ [])
    (hword : ∀ c ∈ name, isWordChar c = true) :
    (front ++ name).getLast?.any isWordChar = true := by
  rw [List.getLast?_append, List.getLast?_eq_some_getLast hname, Option.some_or]
  exact hword _ (List.getLast_mem hname)

/-! ## Blanks beside words -/

theorem isBlank_of_mem_nil : ∀ c ∈ ([] : List Char), isBlank c = true := List.forall_mem_nil _

theorem isBlank_of_mem_space : ∀ c ∈ [' '], isBlank c = true := List.forall_mem_singleton.2 rfl

section Gap

variable {gap : List Char} (hgap : ∀ c ∈ gap, isBlank c = true)

include hgap

theorem head?_append_of_blank {rest : List Char} (hrest : rest.head?.any isWordChar = false) :
    (gap ++ rest).head?.any isWordChar = false := by
  cases gap with
  | nil => exact hrest
  | cons c gap => exact not_isWordChar_of_isBlank (hgap c List.mem_cons_self)

theorem head?_append_of_ne_nil (hne : gap ≠ []) (rest : List Char) :
    (gap ++ rest).head?.any isWordChar = false := by
  obtain ⟨c, others, rfl⟩ := List.exists_cons_of_ne_nil hne
  exact not_isWordChar_of_isBlank (hgap c List.mem_cons_self)

theorem getLast?_of_blank : gap.getLast?.any isWordChar = false := by
  cases hlast : gap.getLast? with
  | none => rfl
  | some c => exact not_isWordChar_of_isBlank (hgap c (List.mem_of_getLast? hlast))

theorem getLast?_append_of_ne_nil (hne : gap ≠ []) (front : List Char) :
    (front ++ gap).getLast?.any isWordChar = false := by
  rw [List.getLast?_append, List.getLast?_eq_some_getLast hne, Option.some_or]
  exact not_isWordChar_of_isBlank (hgap _ (List.getLast_mem hne))

end Gap

end CodeSurvey.Text
