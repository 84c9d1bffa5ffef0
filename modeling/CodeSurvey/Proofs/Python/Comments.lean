/-
# A comment put in between two lines

A line that is only a comment, put in outside strings, changes nothing but the numbers of the lines
below it, if it fits there (`comment_put_in`): it spares the blocks that it is in, and no docstring
is open.  A comment that is as deep as the next line with content spares every block, and without a
triple quote above no docstring is open (`fits_of_deep`).  A comment that is no deeper than the
header of a function ends the function, whose body then stops above it.
-/
import CodeSurvey.Proofs.Python.Located
import CodeSurvey.Proofs.Python.MovedFindings
import CodeSurvey.Proofs.Python.Numbering

namespace CodeSurvey.Python

open Text Pattern

/-! ## Comments that fit -/

theorem spares_of_deep {c : Line} {back : List Line}
    (hdeep : ∀ line, back.find? hasContent = some line → indentWidth line ≤ indentWidth c)
    (header : Line) (below : List Line) : Spares c back header below := by
  intro _ _ _ hcontent
  have hsome : ((blockUnder header back).find? hasContent).isSome = true := by
    rw [List.find?_isSome]
    exact hcontent
  obtain ⟨first, hfirst⟩ := Option.isSome_iff_exists.1 hsome
  have hnext : back.find? hasContent = some first := by
    rw [← blockUnder_append_drop header back, List.find?_append, hfirst, Option.some_or]
  have hin : inBlock (indentWidth header) first = true :=
    List.mem_takeWhile_imp (List.mem_of_find?_eq_some hfirst)
  have hdeeper := lt_indentWidth_of_inBlock hin (List.find?_some hfirst)
  exact Nat.lt_of_lt_of_le hdeeper (hdeep first hnext)

theorem dropStringPrefix_isSuffix (content : List Char) : dropStringPrefix content <:+ content := by
  unfold dropStringPrefix
  dsimp only
  split
  · exact List.dropWhile_suffix _
  · exact List.suffix_refl content

theorem exists_quote_of_docstringOpen {lines : List Line} (h : DocstringOpen lines) :
    ∃ line ∈ lines, ∃ quote : TripleQuote, occursIn quote.text line = true := by
  obtain ⟨above, line, quote, hfirst, hquote, -, -⟩ := h
  refine ⟨line, List.mem_of_getElem? (getElem?_of_firstContent? hfirst), quote, ?_⟩
  rw [leadingQuote?] at hquote
  have hbegins := List.find?_some hquote
  rw [List.isPrefixOf_iff_prefix] at hbegins
  rw [occursIn_iff_isInfix]
  exact hbegins.isInfix.trans ((dropStringPrefix_isSuffix _).isInfix.trans (trim_isInfix line))

theorem Documented.isSuffix {lines : List Line} {header : Line} {below : List Line}
    (h : Documented (outline lines) header below) : header :: below <:+ lines := by
  have hplaced := (outlined_outline lines).placed (LinesFrom.first lines)
  cases h with
  | function hf =>
      obtain ⟨-, hdrop⟩ := (hplaced _ hf).linesFrom
      rw [← hdrop]
      exact List.drop_suffix _ _
  | module_class hitem _ =>
      obtain ⟨-, hdrop⟩ := (hplaced _ hitem).linesFrom
      rw [← hdrop]
      exact List.drop_suffix _ _

theorem fits_of_deep {c : Line} {front back : List Line}
    (hdeep : ∀ line, back.find? hasContent = some line → indentWidth line ≤ indentWidth c)
    (hquotes : ∀ quote : TripleQuote, ∀ line ∈ front, occursIn quote.text line = false) :
    Fits c back (outline (front ++ back)) where
  blocks header below _ := spares_of_deep hdeep header below
  loops _ _ item _ _ := spares_of_deep hdeep item.text item.below
  docstrings := by
    rintro header _ hdocumented between rfl - hopen
    obtain ⟨above, habove⟩ := hdocumented.isSuffix
    rw [← List.cons_append, ← List.append_assoc, List.append_left_inj] at habove
    obtain ⟨line, hline, quote, hquote⟩ := exists_quote_of_docstringOpen hopen
    have hmem : line ∈ front := by
      rw [← habove]
      exact List.mem_append_right _ (List.mem_cons_of_mem _ hline)
    rw [hquotes quote line hmem] at hquote
    cases hquote

/-! ## Style -/

/-- A line that holds only a comment, without tabs and without blanks at its end. -/
structure IsPlainComment (c : Line) : Prop where
  is_comment : isCommentLine c = true
  no_tab : '\t' ∉ c
  no_trailing : c.getLast? ≠ some ' '

/-- The remark on a line with too many characters. -/
def longLineIssue (number : Nat) : LineIssue :=
  ⟨number, "line longer than " ++ toString maxLineLength ++ " characters."⟩

theorem styleIssues_of_isPlainComment {c : Line} (hc : IsPlainComment c) (number : Nat) :
    styleIssues number c = if maxLineLength < c.length then [longLineIssue number] else [] := by
  have htab : c.contains '\t' = false := by
    rw [Bool.eq_false_iff, ne_eq, List.contains_iff_mem]
    exact hc.no_tab
  have htrailing : c.getLast?.any (fun c => c == ' ' || c == '\t') = false := by
    cases hlast : c.getLast? with
    | none => rfl
    | some last =>
        have hspace : last ≠ ' ' := fun h => hc.no_trailing (h ▸ hlast)
        have hnotab : last ≠ '\t' := fun h => hc.no_tab (h ▸ List.mem_of_getLast? hlast)
        rw [Option.any_some, beq_false_of_ne hspace, beq_false_of_ne hnotab]
        rfl
  rw [styleIssues, htab, htrailing]
  rfl

theorem styleIssues_moved (place number : Nat) (line : Line) :
    (styleIssues number line).map (LineIssue.moved place) =
      styleIssues (shift place number) line := by
  have hif : ∀ (p : Prop) [Decidable p] (message : String),
      (if p then [LineIssue.mk number message] else []).map (LineIssue.moved place) =
        if p then [LineIssue.mk (shift place number) message] else [] := by
    intro p _ message
    split <;> rfl
  rw [styleIssues, styleIssues, List.map_append, List.map_append, hif, hif, hif]

theorem styleIssues_below {place number : Nat} (h : place < number) (lines : List Line) :
    (eachLine styleIssues number lines).map (LineIssue.moved place) =
      eachLine styleIssues (number + 1) lines := by
  induction lines generalizing number with
  | nil => rfl
  | cons line lines ih =>
      rw [eachLine, eachLine, List.map_append, styleIssues_moved, shift_of_lt h,
        ih (Nat.lt_succ_of_lt h)]

theorem styleIssues_above {place number : Nat} {lines : List Line}
    (h : number + lines.length ≤ place + 1) :
    (eachLine styleIssues number lines).map (LineIssue.moved place) =
      eachLine styleIssues number lines := by
  induction lines generalizing number with
  | nil => rfl
  | cons line lines ih =>
      rw [List.length_cons] at h
      rw [eachLine, List.map_append, styleIssues_moved, shift_of_le (by omega), ih (by omega)]

theorem line_of_mem_eachLine_styleIssues {number : Nat} {lines : List Line} {issue : LineIssue}
    (h : issue ∈ eachLine styleIssues number lines) :
    number ≤ issue.line ∧ issue.line < number + lines.length := by
  obtain ⟨i, line, hline, hmem⟩ := mem_eachLine h
  obtain ⟨hlt, -⟩ := List.getElem?_eq_some_iff.1 hline
  rw [line_of_mem_styleIssues hmem]
  exact ⟨Nat.le_add_right number i, Nat.add_lt_add_left hlt number⟩

/-! ## All findings -/

section PutIn

variable {source edited : String} {front back : List Line} {c : Line}

/-- **Remarks on style move**, and the comment adds none but one on its length. -/
theorem styleIssues_put_in (hsource : linesOf source = front ++ back)
    (hedited : linesOf edited = front ++ c :: back) (hc : IsPlainComment c) :
    (analyze edited).styleIssues.filter (·.line != front.length + 1) =
        (analyze source).styleIssues.map (LineIssue.moved front.length) ∧
      ∀ issue ∈ (analyze edited).styleIssues, issue.line = front.length + 1 →
        maxLineLength < c.length ∧ issue = longLineIssue issue.line := by
  have hold : (analyze source).styleIssues =
      eachLine styleIssues 1 front ++ eachLine styleIssues (front.length + 1) back := by
    show eachLine styleIssues 1 (linesOf source) = _
    rw [hsource, eachLine_append, Nat.add_comm 1]
  have hnew : (analyze edited).styleIssues =
      eachLine styleIssues 1 front ++ (styleIssues (front.length + 1) c ++
        eachLine styleIssues (front.length + 1 + 1) back) := by
    show eachLine styleIssues 1 (linesOf edited) = _
    rw [hedited, eachLine_append, Nat.add_comm 1, eachLine]
  have hcomment : ∀ issue ∈ styleIssues (front.length + 1) c,
      maxLineLength < c.length ∧ issue = longLineIssue issue.line := by
    intro issue hissue
    rw [styleIssues_of_isPlainComment hc] at hissue
    split at hissue
    · rename_i hlong
      rw [List.mem_singleton.1 hissue]
      exact ⟨hlong, rfl⟩
    · cases hissue
  have habove : ∀ issue ∈ eachLine styleIssues 1 front, issue.line ≠ front.length + 1 := by
    intro issue hissue
    have hlt := (line_of_mem_eachLine_styleIssues hissue).2
    omega
  have hhere : ∀ issue ∈ styleIssues (front.length + 1) c, issue.line = front.length + 1 :=
    fun issue hissue => line_of_mem_styleIssues hissue
  have hbelow : ∀ issue ∈ eachLine styleIssues (front.length + 1 + 1) back,
      issue.line ≠ front.length + 1 := by
    intro issue hissue
    have hle := (line_of_mem_eachLine_styleIssues hissue).1
    omega
  constructor
  · have hfront := List.filter_eq_self.2 (fun issue h => bne_iff_ne.2 (habove issue h))
    have hback := List.filter_eq_self.2 (fun issue h => bne_iff_ne.2 (hbelow issue h))
    have hnone : (styleIssues (front.length + 1) c).filter (·.line != front.length + 1) = [] := by
      refine List.filter_eq_nil_iff.2 (fun issue hissue => ?_)
      rw [hhere issue hissue, bne_self_eq_false]
      exact Bool.false_ne_true
    rw [hold, hnew, List.filter_append, List.filter_append, hfront, hnone, hback, List.nil_append,
      List.map_append, styleIssues_above (by omega), styleIssues_below (Nat.lt_succ_self _)]
  · intro issue hissue hline
    rw [hnew, List.mem_append, List.mem_append] at hissue
    rcases hissue with hissue | hissue | hissue
    · exact absurd hline (habove issue hissue)
    · exact hcomment issue hissue
    · exact absurd hline (hbelow issue hissue)

theorem functions_cut (hsource : linesOf source = front ++ back)
    (hedited : linesOf edited = front ++ c :: back) (hc : isCommentLine c = true)
    {above between : List Line} {header : Line} {name : String} {parameters : List String}
    (hfront : front = above ++ header :: between)
    (hbegins : (stateBehind above).BeginsFunction header name parameters)
    (hbetween : AllInBlock (indentWidth header) between)
    (hshallow : indentWidth c ≤ indentWidth header) :
    ∃ f ∈ functionsIn (linesOf source), ∃ g ∈ functionsIn (linesOf edited),
      f.number = above.length + 1 ∧ g.number = above.length + 1 ∧ f.name = name ∧ g.name = name ∧
        f.block = between ++ blockUnder header back ∧ g.block = between := by
  subst hfront
  rw [List.append_assoc, List.cons_append] at hsource hedited
  have hends : LeavesBlock (indentWidth header) (c :: back) := by
    rintro line hline
    obtain rfl := Option.some.inj hline
    rw [inBlock, not_isBlankText_of_isCommentLine hc, Bool.false_or, decide_eq_false_iff_not]
    exact Nat.not_lt_of_le hshallow
  refine ⟨functionAt (above.length + 1) header name parameters (between ++ back), ?_,
    functionAt (above.length + 1) header name parameters (between ++ c :: back), ?_,
    rfl, rfl, rfl, rfl, ?_, ?_⟩
  · rw [hsource]
    exact mem_functionsIn.2 (functionAt_mem_outline hbegins)
  · rw [hedited]
    exact mem_functionsIn.2 (functionAt_mem_outline hbegins)
  · rw [block_functionAt, blockUnder_append hbetween]
  · rw [block_functionAt, blockUnder_append_of_leavesBlock hbetween hends]

/-- **A comment put in outside strings.**  If it fits, every finding stays but for the numbers of
the lines below, the remarks on style and what compares the text of functions apart.  Remarks on
style move in any case.  And a function ends in front of a comment that is no deeper than its
header. -/
theorem comment_put_in (hsource : linesOf source = front ++ back)
    (hedited : linesOf edited = front ++ c :: back) (hc : IsPlainComment c)
    (houtside : (stateBehind front).stringsAt c = none) :
    (Fits c back (outline (linesOf source)) →
      (analyze edited).core = (analyze source).core.moved front.length) ∧
    ((analyze edited).styleIssues.filter (·.line != front.length + 1) =
        (analyze source).styleIssues.map (LineIssue.moved front.length) ∧
      ∀ issue ∈ (analyze edited).styleIssues, issue.line = front.length + 1 →
        maxLineLength < c.length ∧ issue = longLineIssue issue.line) ∧
    ∀ above header between name parameters, front = above ++ header :: between →
      (stateBehind above).BeginsFunction header name parameters →
      AllInBlock (indentWidth header) between → indentWidth c ≤ indentWidth header →
      ∃ f ∈ functionsIn (linesOf source), ∃ g ∈ functionsIn (linesOf edited),
        f.number = above.length + 1 ∧ g.number = above.length + 1 ∧ f.name = name ∧ g.name = name ∧
          f.block = between ++ blockUnder header back ∧ g.block = between := by
  refine ⟨fun hfits => ?_, styleIssues_put_in hsource hedited hc, ?_⟩
  · have hold := outlined_outline (linesOf source)
    have hnew := outlined_outline (linesOf edited)
    rw [hsource] at hold hfits
    rw [hedited] at hnew
    have hplace : 1 + front.length = front.length + 1 := Nat.add_comm 1 front.length
    have hsteps := hold.upTo hc.is_comment hnew hplace houtside hfits
    rw [← hsource, ← hedited] at hsteps
    exact core_findingsOf hsteps (linesOf source) (linesOf edited)
  · intro above header between name parameters hfront hbegins hbetween hshallow
    exact functions_cut hsource hedited hc.is_comment hfront hbegins hbetween hshallow

end PutIn

/-- A function with a line behind its `return`. -/
def deadLine : String := "def f():\n    return 1\n    print(2)"

/-- The function with a comment as deep as its body. -/
def deadLineNoted : String := "def f():\n    return 1\n    # note\n    print(2)"

/-- The function with a comment in the first column. -/
def deadLineCut : String := "def f():\n    return 1\n# note\n    print(2)"

/-- The deep comment moves what is found; in front of the other the function ends. -/
theorem put_in_deadLine :
    (analyze deadLineNoted).core = (analyze deadLine).core.moved 2 ∧
      ∃ f ∈ functionsIn (linesOf deadLine), ∃ g ∈ functionsIn (linesOf deadLineCut),
        f.block = ["    return 1".toList, "    print(2)".toList] ∧
          g.block = ["    return 1".toList] := by
  let front : List Line := ["def f():".toList, "    return 1".toList]
  let back : List Line := ["    print(2)".toList]
  have hsource : linesOf deadLine = front ++ back := rfl
  have hnoted : linesOf deadLineNoted = front ++ "    # note".toList :: back := rfl
  have hcut : linesOf deadLineCut = front ++ "# note".toList :: back := rfl
  have hfits : Fits "    # note".toList back (outline (front ++ back)) := by
    refine fits_of_deep ?_ ?_
    · intro line hline
      obtain rfl := Option.some.inj hline
      decide
    · rintro (_ | _)
      · decide
      · decide
  have hbegins : (stateBehind []).BeginsFunction "def f():".toList "f" [] :=
    ⟨rfl, rfl, by decide⟩
  have hbetween : AllInBlock (indentWidth "def f():".toList) ["    return 1".toList] :=
    List.forall_mem_singleton.2 (by decide)
  obtain ⟨hmoved, -, -⟩ :=
    comment_put_in hsource hnoted ⟨by decide, by decide, by decide⟩ (by decide)
  obtain ⟨-, -, hends⟩ := comment_put_in hsource hcut ⟨by decide, by decide, by decide⟩ (by decide)
  obtain ⟨f, hf, g, hg, -, -, -, -, hblock, hblock'⟩ :=
    hends [] "def f():".toList ["    return 1".toList] "f" [] rfl hbegins hbetween (by decide)
  exact ⟨hmoved hfits, f, hf, g, hg, hblock, hblock'⟩

/-- The comment in the first column hides that the line below it is never reached. -/
theorem deadCode_deadLineCut :
    linesOf deadLine = ["def f():".toList, "    return 1".toList] ++ ["    print(2)".toList] ∧
      linesOf deadLineCut = ["def f():".toList, "    return 1".toList] ++
        "# note".toList :: ["    print(2)".toList] ∧
      IsPlainComment "# note".toList ∧
      (stateBehind ["def f():".toList, "    return 1".toList]).stringsAt "# note".toList = none ∧
      (analyze deadLine).deadCode.map (·.line) = [3] ∧ (analyze deadLineCut).deadCode = [] :=
  ⟨rfl, rfl, ⟨by decide, by decide, by decide⟩, by decide, by decide, by decide⟩

end CodeSurvey.Python
