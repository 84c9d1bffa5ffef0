/-
# Equality operators

A line is read into operators by the longest match: at each place the longest operator that begins
there, and the next one behind it (`operatorTokens`).  The findings look at longest runs of operator
characters instead, and count a run as an equality only if it is one as a whole.  So of the
operators that a line is made of, those are seen that stand alone, with no other operator right in
front of them or right behind (`exists_alone_iff_isRun`).
-/
import CodeSurvey.Proofs.Pattern.Searching
import CodeSurvey.Scan.JavaScript

namespace CodeSurvey.JavaScript

open Text Pattern

/-! ## Longest match -/

/-- The operators made of equals signs, exclamation marks and angle brackets, the longer first. -/
def operatorTexts : List Line :=
  [">>>=", "===", "!==", ">>>", "<<=", ">>=", "==", "!=", "<=", ">=", "=>", "<<", ">>", "=", "!",
    "<", ">"].map String.toList

/-- The operators that compare with conversion. -/
def looseTexts : List Line := ["==", "!="].map String.toList

/-- The operators that compare strictly. -/
def strictTexts : List Line := ["===", "!=="].map String.toList

def longestOperator? (text : Line) : Option Line :=
  operatorTexts.find? (·.isPrefixOf text)

/-- An operator with what stands in front of it on its line, and what stands behind. -/
structure OperatorToken where
  front : Line
  text : Line
  back : Line
deriving DecidableEq, Repr

/-- Read on behind a front; `skip` characters still belong to the operator read last. -/
def operatorTokensFrom (skip : Nat) (front : Line) : Line → List OperatorToken
  | [] => []
  | c :: rest =>
    if skip > 0 then operatorTokensFrom (skip - 1) (front ++ [c]) rest
    else
      match longestOperator? (c :: rest) with
      | some op =>
        ⟨front, op, (c :: rest).drop op.length⟩ ::
          operatorTokensFrom (op.length - 1) (front ++ [c]) rest
      | none => operatorTokensFrom 0 (front ++ [c]) rest

/-- The operators of a line by longest match, from left to right. -/
def operatorTokens (line : Line) : List OperatorToken :=
  operatorTokensFrom 0 [] line

/-- A character that these operators are made of. -/
def isOperatorChar (c : Char) : Bool := c == '=' || c == '!' || c == '<' || c == '>'

def OperatorToken.Alone (t : OperatorToken) : Prop :=
  t.front.getLast?.any isOperatorChar = false ∧ t.back.head?.any isOperatorChar = false

instance (t : OperatorToken) : Decidable t.Alone :=
  inferInstanceAs (Decidable (_ ∧ _))

section Longest

variable {text op other : Line}

theorem operator_of_longest (h : longestOperator? text = some op) :
    op ∈ operatorTexts ∧ op <+: text := by
  have hbegins : op.isPrefixOf text = true :=
    List.find?_some (p := fun op : Line => op.isPrefixOf text) h
  exact ⟨List.mem_of_find?_eq_some h, List.isPrefixOf_iff_prefix.1 hbegins⟩

theorem pairwise_operatorTexts :
    operatorTexts.Pairwise (fun longer shorter => shorter.length ≤ longer.length) := by
  decide

theorem length_le_of_longest (h : longestOperator? text = some op) (hother : other ∈ operatorTexts)
    (hbegins : other <+: text) : other.length ≤ op.length := by
  obtain ⟨-, earlier, later, hsplit, hearlier⟩ := List.find?_eq_some_iff_append.1 h
  have hpairwise := pairwise_operatorTexts
  rw [hsplit] at hother hpairwise
  rcases List.mem_append.1 hother with hother | hother
  · have hnot := hearlier other hother
    rw [List.isPrefixOf_iff_prefix.2 hbegins] at hnot
    cases hnot
  · rcases List.mem_cons.1 hother with rfl | hother
    · exact Nat.le_refl _
    · exact List.rel_of_pairwise_cons (List.pairwise_append.1 hpairwise).2.1 hother

theorem isOperatorChar_of_mem :
    ∀ op ∈ operatorTexts, op ≠ [] ∧ ∀ c ∈ op, isOperatorChar c = true := by
  simp only [← List.all_eq_true]
  decide

theorem operator_of_isOperatorChar {c : Char} (h : isOperatorChar c = true) :
    [c] ∈ operatorTexts := by
  simp only [isOperatorChar, Bool.or_eq_true, beq_iff_eq, or_assoc] at h
  rcases h with rfl | rfl | rfl | rfl <;> decide

theorem longestOperator?_append (hop : op ∈ operatorTexts) {back : Line}
    (hback : back.head?.any isOperatorChar = false) : longestOperator? (op ++ back) = some op := by
  have hbegins : op.isPrefixOf (op ++ back) = true :=
    List.isPrefixOf_iff_prefix.2 (List.prefix_append op back)
  cases hlongest : longestOperator? (op ++ back) with
  | none => exact absurd hbegins (List.find?_eq_none.1 hlongest op hop)
  | some best =>
      obtain ⟨hbest, hprefix⟩ := operator_of_longest hlongest
      have hle := length_le_of_longest hlongest hop (List.prefix_append op back)
      obtain ⟨more, rfl⟩ := List.prefix_of_prefix_length_le (List.prefix_append op back) hprefix hle
      cases more with
      | nil => rw [List.append_nil]
      | cons c more =>
          have hmore := (List.prefix_append_right_inj op).1 hprefix
          obtain ⟨rest, rfl⟩ := hmore
          have hc := (isOperatorChar_of_mem _ hbest).2 c (by simp)
          exact absurd hc (Bool.eq_false_iff.1 hback)

end Longest

/-! ## Operators on a line -/

theorem place_of_mem_operatorTokensFrom {skip : Nat} {front rest : Line} {t : OperatorToken}
    (h : t ∈ operatorTokensFrom skip front rest) :
    front ++ rest = t.front ++ (t.text ++ t.back) ∧
      longestOperator? (t.text ++ t.back) = some t.text := by
  induction rest generalizing skip front with
  | nil => cases h
  | cons c rest ih =>
      have hnext : ∀ skip, t ∈ operatorTokensFrom skip (front ++ [c]) rest →
          front ++ c :: rest = t.front ++ (t.text ++ t.back) ∧
            longestOperator? (t.text ++ t.back) = some t.text := by
        intro skip hmem
        have hthere := ih hmem
        rwa [List.append_assoc] at hthere
      rw [operatorTokensFrom] at h
      split at h
      · exact hnext _ h
      · split at h
        · rename_i op hop
          rcases List.mem_cons.1 h with rfl | h
          · have hsplit := List.prefix_iff_eq_append.1 (operator_of_longest hop).2
            exact ⟨congrArg (front ++ ·) hsplit.symm, by rw [hsplit]; exact hop⟩
          · exact hnext _ h
        · exact hnext _ h

theorem flatMap_text_operatorTokensFrom (skip : Nat) (front rest : Line) :
    (operatorTokensFrom skip front rest).flatMap OperatorToken.text =
      (rest.drop skip).filter isOperatorChar := by
  induction rest generalizing skip front with
  | nil => rw [List.drop_nil]; rfl
  | cons c rest ih =>
      rw [operatorTokensFrom]
      split
      · rename_i hskip
        obtain ⟨skip, rfl⟩ := Nat.exists_eq_succ_of_ne_zero (Nat.ne_of_gt hskip)
        exact ih skip (front ++ [c])
      · rename_i hskip
        rw [Nat.eq_zero_of_not_pos hskip, List.drop_zero]
        split
        · rename_i op hop
          obtain ⟨hmem, back, hback⟩ := operator_of_longest hop
          obtain ⟨hne, hchars⟩ := isOperatorChar_of_mem op hmem
          obtain ⟨d, more, rfl⟩ := List.exists_cons_of_ne_nil hne
          have hrest : rest = more ++ back := (List.cons.inj hback).2.symm
          rw [List.flatMap_cons, ih, ← hback, List.filter_append, List.filter_eq_self.2 hchars,
            List.length_cons, Nat.add_sub_cancel, hrest, List.drop_left]
        · rename_i hnone
          have hc : ¬isOperatorChar c = true := fun hc =>
            List.find?_eq_none.1 hnone [c] (operator_of_isOperatorChar hc)
              (List.isPrefixOf_iff_prefix.2 ⟨rest, rfl⟩)
          rw [ih, List.drop_zero, List.filter_cons_of_neg hc]

theorem mem_operatorTokensFrom {skip : Nat} {front more rest : Line} {t : OperatorToken}
    (hlast : more.getLast?.any isOperatorChar = false) (hskip : skip ≤ more.length)
    (h : t ∈ operatorTokensFrom 0 (front ++ more) rest) :
    t ∈ operatorTokensFrom skip front (more ++ rest) := by
  induction more generalizing skip front with
  | nil =>
      rw [List.append_nil] at h
      rw [Nat.le_zero.1 hskip]
      exact h
  | cons c more ih =>
      have hmore : more.getLast?.any isOperatorChar = false := by
        cases more with
        | nil => rfl
        | cons d more => rwa [List.getLast?_cons_cons] at hlast
      have hnext : ∀ skip, skip ≤ more.length →
          t ∈ operatorTokensFrom skip (front ++ [c]) (more ++ rest) := fun skip hle =>
        ih hmore hle (by rw [List.append_assoc]; exact h)
      rw [List.length_cons] at hskip
      rw [List.cons_append, operatorTokensFrom]
      split
      · exact hnext _ (by omega)
      · split
        · rename_i op hop
          refine List.mem_cons_of_mem _ (hnext _ ?_)
          -- an operator that came past this place would have its last character
          obtain ⟨hmem, hprefix⟩ := operator_of_longest hop
          by_contra hlong
          have hwithin : c :: more <+: op :=
            List.prefix_of_prefix_length_le ⟨rest, rfl⟩ hprefix (by rw [List.length_cons]; omega)
          have hlast' := List.getLast_mem (List.cons_ne_nil c more)
          rw [List.getLast?_eq_some_getLast (List.cons_ne_nil c more), Option.any_some,
            (isOperatorChar_of_mem op hmem).2 _ (hwithin.subset hlast')] at hlast
          cases hlast
        · exact hnext 0 (Nat.zero_le _)

theorem mem_operatorTokens_of_longest {front op back : Line}
    (hfront : front.getLast?.any isOperatorChar = false)
    (hop : longestOperator? (op ++ back) = some op) (hne : op ≠ []) :
    ⟨front, op, back⟩ ∈ operatorTokens (front ++ (op ++ back)) := by
  show _ ∈ operatorTokensFrom 0 [] (front ++ (op ++ back))
  refine mem_operatorTokensFrom hfront (Nat.zero_le _) ?_
  obtain ⟨c, more, rfl⟩ := List.exists_cons_of_ne_nil hne
  have hback : (c :: (more ++ back)).drop (c :: more).length = back := List.drop_left
  rw [List.cons_append] at hop ⊢
  rw [operatorTokensFrom, if_neg (Nat.lt_irrefl 0), hop]
  dsimp only
  rw [hback]
  exact List.mem_cons_self

/-- **An operator stands alone where it is a run of operator characters.** -/
theorem exists_alone_iff_isRun {line op : Line} (hop : op ∈ operatorTexts) :
    (∃ t ∈ operatorTokens line, t.text = op ∧ t.Alone) ↔ IsRun isOperatorChar line op := by
  obtain ⟨hne, hchars⟩ := isOperatorChar_of_mem op hop
  constructor
  · rintro ⟨t, ht, rfl, hfront, hback⟩
    exact ⟨t.front, t.back, (place_of_mem_operatorTokensFrom ht).1, hne, hchars, hfront, hback⟩
  · rintro ⟨front, back, rfl, -, -, hfront, hback⟩
    have hlongest := longestOperator?_append hop hback
    exact ⟨_, mem_operatorTokens_of_longest hfront hlongest hne, rfl, hfront, hback⟩

theorem longestOperator?_negated {op : Line} (hop : op ∈ looseTexts ++ strictTexts) (back : Line) :
    longestOperator? (op ++ '!' :: back) = some op := by
  simp only [looseTexts, strictTexts, List.map_cons, List.map_nil, List.cons_append,
    List.nil_append, List.mem_cons, List.not_mem_nil, or_false] at hop
  rcases hop with rfl | rfl | rfl | rfl <;> rfl

/-! ## What the findings see -/

theorem mem_operators_iff {l : CodeLine} {op : Line} :
    String.ofList op ∈ l.operators ↔ IsRun isOperatorChar l.code op := by
  rw [CodeLine.operators, List.mem_map, ← exists_match_iff_isRun]
  simp only [String.ofList_inj]
  exact Iff.rfl

def ShowsAlone (texts : List Line) (l : CodeLine) : Prop :=
  ∃ t ∈ operatorTokens l.code, t.text ∈ texts ∧ t.Alone

instance (texts : List Line) (l : CodeLine) : Decidable (ShowsAlone texts l) :=
  inferInstanceAs (Decidable (∃ t ∈ _, _))

theorem showsAlone_iff {texts : List Line} (htexts : ∀ op ∈ texts, op ∈ operatorTexts)
    {l : CodeLine} : ShowsAlone texts l ↔ ∃ op ∈ texts, String.ofList op ∈ l.operators := by
  simp only [mem_operators_iff]
  constructor
  · rintro ⟨t, ht, hmem, halone⟩
    exact ⟨t.text, hmem, (exists_alone_iff_isRun (htexts _ hmem)).1 ⟨t, ht, rfl, halone⟩⟩
  · rintro ⟨op, hmem, hrun⟩
    obtain ⟨t, ht, rfl, halone⟩ := (exists_alone_iff_isRun (htexts _ hmem)).2 hrun
    exact ⟨t, ht, hmem, halone⟩

theorem any_operators_iff {a b : String}
    (htexts : ∀ op ∈ [a, b].map String.toList, op ∈ operatorTexts) {l : CodeLine} :
    l.operators.any (fun op => op == a || op == b) = true ↔
      ShowsAlone ([a, b].map String.toList) l := by
  rw [showsAlone_iff htexts, List.any_eq_true]
  constructor
  · rintro ⟨op, hmem, heq⟩
    refine ⟨op.toList, ?_, by rwa [String.ofList_toList]⟩
    rcases Bool.or_eq_true_iff.1 heq with heq | heq
    · exact beq_iff_eq.1 heq ▸ List.mem_cons_self
    · exact beq_iff_eq.1 heq ▸ List.mem_cons_of_mem _ List.mem_cons_self
  · rintro ⟨op, hop, hmem⟩
    obtain ⟨text, htext, rfl⟩ := List.mem_map.1 hop
    rw [String.ofList_toList] at hmem
    refine ⟨text, hmem, ?_⟩
    simpa using htext

theorem mem_linesWhere_iff {rule : CodeLine → Bool} {ls : List CodeLine} {number : Nat} :
    number ∈ linesWhere rule ls ↔ ∃ l ∈ ls, l.number = number ∧ rule l = true := by
  rw [linesWhere, List.mem_map]
  constructor
  · rintro ⟨l, hl, rfl⟩
    exact ⟨l, (List.mem_filter.1 hl).1, rfl, (List.mem_filter.1 hl).2⟩
  · rintro ⟨l, hl, rfl, hrule⟩
    exact ⟨l, List.mem_filter.2 ⟨hl, hrule⟩, rfl⟩

/-- **Equality operators are seen where they stand alone.**  The lines that are reported are those
on which an equality operator has no other operator right in front of it or right behind.  The
operators of a line are all its operator characters in order, and each is the longest that begins at
its place.  So an equality operator that a negation follows at once is one of them, and is not
seen. -/
theorem equality_seen_alone (source : String) (number : Nat) :
    (number ∈ (analyze source).doubleEquals ↔
      ∃ l ∈ codeLines (linesOf source), l.number = number ∧ ShowsAlone looseTexts l) ∧
    (number ∈ (analyze source).tripleEquals ↔
      ∃ l ∈ codeLines (linesOf source), l.number = number ∧ ShowsAlone strictTexts l) ∧
    (∀ line, (operatorTokens line).flatMap OperatorToken.text = line.filter isOperatorChar ∧
      ∀ t ∈ operatorTokens line, line = t.front ++ (t.text ++ t.back) ∧ t.text ∈ operatorTexts ∧
        ∀ other ∈ operatorTexts, other <+: t.text ++ t.back → other.length ≤ t.text.length) ∧
    ∀ front op back, op ∈ looseTexts ++ strictTexts →
      front.getLast?.any isOperatorChar = false →
        ∃ t ∈ operatorTokens (front ++ (op ++ '!' :: back)), t.text = op ∧ ¬t.Alone := by
  refine ⟨?_, ?_, fun line => ⟨?_, fun t ht => ?_⟩, fun front op back hop hfront => ?_⟩
  · have hloose : ∀ l : CodeLine, l.hasLooseEquality = true ↔ ShowsAlone looseTexts l :=
      fun l => any_operators_iff (by decide)
    simp only [← hloose]
    exact mem_linesWhere_iff
  · have hstrict : ∀ l : CodeLine, l.hasStrictEquality = true ↔ ShowsAlone strictTexts l :=
      fun l => any_operators_iff (by decide)
    simp only [← hstrict]
    exact mem_linesWhere_iff
  · exact flatMap_text_operatorTokensFrom 0 [] line
  · obtain ⟨hplace, hlongest⟩ := place_of_mem_operatorTokensFrom ht
    exact ⟨hplace, (operator_of_longest hlongest).1,
      fun other hother hbegins => length_le_of_longest hlongest hother hbegins⟩
  · have hmem : op ∈ operatorTexts := by
      revert op
      decide
    have hne := (isOperatorChar_of_mem op hmem).1
    exact ⟨_, mem_operatorTokens_of_longest hfront (longestOperator?_negated hop back) hne, rfl,
      fun halone => Bool.false_ne_true halone.2.symm⟩

/-- Two comparisons, each with a negation behind it. -/
def negatedOperands : String := "if (a==!b) c();
if (a == b && c!==!d) e();"

/-- The one that is written with spaces is seen. -/
theorem negatedOperands_seen :
    2 ∈ (analyze negatedOperands).doubleEquals ∧
    ∃ t ∈ operatorTokens "if (a==!b) c();".toList, t.text = ['=', '='] ∧ ¬t.Alone := by
  obtain ⟨hloose, -, -, hnegated⟩ := equality_seen_alone negatedOperands 2
  refine ⟨hloose.2 ?_, ?_⟩
  · refine ⟨_, List.getElem_mem (n := 1) (by decide), rfl, ?_⟩
    decide
  · exact hnegated "if (a".toList ['=', '='] "b) c();".toList (by decide) (by decide)

/-- **A negation hides an equality operator.**  Both lines compare, and only one is reported in
either list. -/
theorem negatedOperands_hidden :
    ((analyze negatedOperands).doubleEquals = [2] ∧ (analyze negatedOperands).tripleEquals = []) ∧
    ((codeLines (linesOf negatedOperands)).map
        (fun l => ((operatorTokens l.code).map OperatorToken.text).filter
          (· ∈ looseTexts ++ strictTexts)) = [["==".toList], ["==".toList, "!==".toList]]) := by
  decide

end CodeSurvey.JavaScript
