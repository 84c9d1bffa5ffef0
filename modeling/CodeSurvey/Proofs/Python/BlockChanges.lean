/-
# A block with a comment put in

A comment put in among the lines below a header leaves the block of the header as it is, if the
block ends above the place; it joins the block, if it is deeper than the header; and otherwise the
block ends in front of it (`blockChange_blockUnder`).  What is cut off in the last case makes no
difference if it has no content.  Then the block has the same first line with content, the same
remark on its docstring, unless a docstring is open at the place, and a call token if it had one.
-/
import CodeSurvey.Proofs.Python.Blocks
import CodeSurvey.Proofs.Python.Contentless

namespace CodeSurvey

/-- The number that a line has once another is put in behind the first lines. -/
def shift (place n : Nat) : Nat := if n ≤ place then n else n + 1

theorem shift_of_le {place n : Nat} (h : n ≤ place) : shift place n = n := if_pos h

theorem shift_of_lt {place n : Nat} (h : place < n) : shift place n = n + 1 :=
  if_neg (Nat.not_le_of_lt h)

def LineIssue.moved (place : Nat) (issue : LineIssue) : LineIssue :=
  { issue with line := shift place issue.line }

namespace Python

open Text Pattern

/-! ## The block of a header -/

/-- A comment does not end the block of a header too early: it is deeper than the header if the
block goes on behind it with content. -/
def Spares (c : Line) (back : List Line) (header : Line) (below : List Line) : Prop :=
  ∀ between, below = between ++ back → AllInBlock (indentWidth header) between →
    (∃ line ∈ blockUnder header back, hasContent line = true) → indentWidth header < indentWidth c

/-- What a comment that is put in does to the block of a header above. -/
inductive BlockChange (header c : Line) (front back : List Line) : List Line → List Line → Prop
  | above {block others : List Line} : front = block ++ others → others ≠ [] →
      AllInBlock (indentWidth header) block → LeavesBlock (indentWidth header) others →
      BlockChange header c front back block block
  | within : AllInBlock (indentWidth header) front → indentWidth header < indentWidth c →
      BlockChange header c front back (front ++ blockUnder header back)
        (front ++ c :: blockUnder header back)
  | cut : AllInBlock (indentWidth header) front → inBlock (indentWidth header) c = false →
      (∀ line ∈ blockUnder header back, hasContent line = false) →
      BlockChange header c front back (front ++ blockUnder header back) front

theorem not_isBlankText_of_isCommentLine {c : Line} (h : isCommentLine c = true) :
    isBlankText c = false := by
  rw [Bool.eq_false_iff]
  intro hblank
  rw [isCommentLine, trim_of_isBlankText hblank] at h
  cases h

theorem hasContent_of_isCommentLine {c : Line} (h : isCommentLine c = true) :
    hasContent c = false := by
  rw [hasContent, h, Bool.not_true, Bool.and_false]

theorem LeavesBlock.append {indent : Nat} {others : List Line} (h : LeavesBlock indent others)
    (hne : others ≠ []) (rest : List Line) : LeavesBlock indent (others ++ rest) := by
  obtain ⟨line, others, rfl⟩ := List.exists_cons_of_ne_nil hne
  exact h

/-- **What becomes of the block of a header.** -/
theorem blockChange_blockUnder {header c : Line} {front back : List Line}
    (hc : isCommentLine c = true) (hspares : Spares c back header (front ++ back)) :
    BlockChange header c front back (blockUnder header (front ++ back))
      (blockUnder header (front ++ c :: back)) := by
  obtain ⟨block, others, rfl, hblock, hleaves⟩ := exists_block_split (indentWidth header) front
  cases others with
  | cons line others =>
      have hends := hleaves.append (List.cons_ne_nil line others)
      rw [List.append_assoc, List.append_assoc, blockUnder_append_of_leavesBlock hblock (hends _),
        blockUnder_append_of_leavesBlock hblock (hends _)]
      exact .above rfl (List.cons_ne_nil line others) hblock hleaves
  | nil =>
      rw [List.append_nil] at hspares ⊢
      rw [blockUnder_append hblock, blockUnder_append hblock]
      by_cases hdeeper : indentWidth header < indentWidth c
      · have hin : inBlock (indentWidth header) c = true := by
          rw [inBlock, decide_eq_true hdeeper, Bool.or_true]
        have hjoins : blockUnder header (c :: back) = c :: blockUnder header back :=
          List.takeWhile_cons_of_pos hin
        rw [hjoins]
        exact .within hblock hdeeper
      · have hout : inBlock (indentWidth header) c = false := by
          rw [inBlock, not_isBlankText_of_isCommentLine hc, decide_eq_false hdeeper]
          rfl
        have hends : blockUnder header (c :: back) = [] :=
          List.takeWhile_cons_of_neg (Bool.eq_false_iff.1 hout)
        rw [hends, List.append_nil]
        refine .cut hblock hout (fun line hline => Bool.eq_false_iff.2 (fun hcontent => ?_))
        exact hdeeper (hspares block rfl hblock ⟨line, hline, hcontent⟩)

/-! ## The first line with content -/

theorem firstContent?_cons (line : Line) (rest : List Line) :
    firstContent? (line :: rest) =
      if hasContent line then some (0, line)
      else (firstContent? rest).map (fun found => (found.1 + 1, found.2)) := by
  rw [firstContent?, List.findIdx?_cons]
  cases hasContent line with
  | true => rfl
  | false =>
      rw [firstContent?]
      simp only [Bool.false_eq_true, if_false]
      cases hfound : rest.findIdx? hasContent with
      | none => rfl
      | some n =>
          simp only [Option.map_some, List.getElem?_cons_succ, Option.map_map]
          rfl

theorem firstContent?_eq_none {lines : List Line}
    (h : ∀ line ∈ lines, hasContent line = false) : firstContent? lines = none := by
  induction lines with
  | nil => rfl
  | cons line lines ih =>
      obtain ⟨hline, hlines⟩ := List.forall_mem_cons.1 h
      rw [firstContent?_cons, hline, ih hlines]
      rfl

theorem firstContent?_append_of_some {front : List Line} {found : Nat × Line}
    (h : firstContent? front = some found) (back : List Line) :
    firstContent? (front ++ back) = some found ∧ found.1 < front.length := by
  induction front generalizing found with
  | nil => cases h
  | cons line front ih =>
      rw [firstContent?_cons] at h
      rw [List.cons_append, firstContent?_cons]
      cases hcontent : hasContent line with
      | true =>
          rw [hcontent, if_pos rfl] at h
          obtain rfl := Option.some.inj h
          exact ⟨rfl, Nat.succ_pos _⟩
      | false =>
          rw [hcontent, if_neg Bool.false_ne_true] at h
          obtain ⟨inner, hinner, rfl⟩ := Option.map_eq_some_iff.1 h
          obtain ⟨hfound, hlt⟩ := ih hinner
          rw [hfound]
          exact ⟨rfl, Nat.succ_lt_succ hlt⟩

theorem firstContent?_append_of_none {front : List Line} (h : firstContent? front = none)
    (back : List Line) :
    firstContent? (front ++ back) =
      (firstContent? back).map (fun found => (front.length + found.1, found.2)) := by
  induction front with
  | nil =>
      rw [List.nil_append]
      cases firstContent? back with
      | none => rfl
      | some found => simp
  | cons line front ih =>
      rw [firstContent?_cons] at h
      rw [List.cons_append, firstContent?_cons]
      cases hcontent : hasContent line with
      | true =>
          rw [hcontent, if_pos rfl] at h
          cases h
      | false =>
          rw [hcontent, if_neg Bool.false_ne_true, Option.map_eq_none_iff] at h
          rw [ih h, if_neg Bool.false_ne_true, Option.map_map]
          refine congrArg (Option.map · _) (funext (fun found => ?_))
          simp only [Function.comp_apply, List.length_cons]
          rw [Nat.add_right_comm]

variable {header c : Line} {front back block block' : List Line}

theorem BlockChange.firstContent?_eq (h : BlockChange header c front back block block')
    (hc : hasContent c = false) :
    (firstContent? block').map (·.2) = (firstContent? block).map (·.2) := by
  cases h with
  | above _ _ _ _ => rfl
  | within _ _ =>
      cases hfront : firstContent? front with
      | some found =>
          rw [(firstContent?_append_of_some hfront _).1, (firstContent?_append_of_some hfront _).1]
      | none =>
          rw [firstContent?_append_of_none hfront, firstContent?_append_of_none hfront,
            firstContent?_cons, hc, if_neg Bool.false_ne_true]
          simp only [Option.map_map]
          rfl
  | cut _ _ hbehind =>
      cases hfront : firstContent? front with
      | some found => rw [(firstContent?_append_of_some hfront _).1]
      | none =>
          rw [firstContent?_append_of_none hfront, firstContent?_eq_none hbehind]
          rfl

/-- What is looked for on lines with content only is found in both blocks or in neither. -/
theorem BlockChange.any_eq (h : BlockChange header c front back block block')
    (hc : hasContent c = false) {p : Line → Bool}
    (hp : ∀ line, hasContent line = false → p line = false) : block'.any p = block.any p := by
  cases h with
  | above _ _ _ _ => rfl
  | within _ _ => rw [List.any_append, List.any_append, List.any_cons, hp c hc, Bool.false_or]
  | cut _ _ hbehind =>
      have hnone : (blockUnder header back).any p = false :=
        List.any_eq_false.2 (fun line hline => Bool.eq_false_iff.1 (hp line (hbehind line hline)))
      rw [List.any_append, hnone, Bool.or_false]

/-! ## The docstring -/

/-- What is wrong with the first line with content as a docstring, given the lines below it. -/
def docstringFault? (line : Line) (rest : List Line) : Option String :=
  match leadingQuote? (dropStringPrefix (trim line)) with
  | none => some "no docstring."
  | some quote =>
    if 2 ≤ occurrences quote.text (dropStringPrefix (trim line)) ||
        rest.any (occursIn quote.text) then none
    else some "an unterminated docstring."

theorem docstringIssue?_of_none {block : List Line} (h : firstContent? block = none)
    (kind name : String) (number : Nat) :
    docstringIssue? kind name number block =
      some ⟨number, kind ++ " '" ++ name ++ "' has " ++ "no docstring."⟩ := by
  rw [docstringIssue?, h]

theorem docstringIssue?_of_some {block : List Line} {above : Nat} {line : Line}
    (h : firstContent? block = some (above, line)) (kind name : String) (number : Nat) :
    docstringIssue? kind name number block =
      (docstringFault? line (block.drop (above + 1))).map
        (fun fault => ⟨number + 1 + above, kind ++ " '" ++ name ++ "' has " ++ fault⟩) := by
  rw [docstringIssue?, h, docstringFault?]
  dsimp only
  cases leadingQuote? (dropStringPrefix (trim line)) with
  | none => rfl
  | some quote =>
      dsimp only
      split <;> rfl

/-- The lines begin a docstring that they do not close. -/
def DocstringOpen (lines : List Line) : Prop :=
  ∃ above line quote, firstContent? lines = some (above, line) ∧
    leadingQuote? (dropStringPrefix (trim line)) = some quote ∧
    occurrences quote.text (dropStringPrefix (trim line)) < 2 ∧
    ∀ other ∈ lines.drop (above + 1), occursIn quote.text other = false

/-- A docstring that is not left open is told by the lines down to its end. -/
theorem docstringFault?_append {above : Nat} {line : Line}
    (h : firstContent? front = some (above, line)) (hclosed : ¬DocstringOpen front)
    (more : List Line) :
    docstringFault? line (front.drop (above + 1) ++ more) =
      docstringFault? line (front.drop (above + 1)) := by
  rw [docstringFault?, docstringFault?]
  cases hquote : leadingQuote? (dropStringPrefix (trim line)) with
  | none => rfl
  | some quote =>
      dsimp only
      rw [List.any_append]
      by_cases htwo : 2 ≤ occurrences quote.text (dropStringPrefix (trim line))
      · rw [decide_eq_true htwo]
        rfl
      · have hfound : (front.drop (above + 1)).any (occursIn quote.text) = true := by
          by_contra hnone
          refine hclosed ⟨above, line, quote, h, hquote, Nat.lt_of_not_le htwo, ?_⟩
          intro other hother
          exact Bool.eq_false_iff.2 (List.any_eq_false.1 (Bool.eq_false_iff.2 hnone) other hother)
        rw [hfound, Bool.true_or]

theorem docstringIssue?_moved_of_none {number number' place : Nat}
    (hnumber : number' = shift place number) (hblock : firstContent? block = none)
    (hblock' : firstContent? block' = none) (kind name : String) :
    docstringIssue? kind name number' block' =
      (docstringIssue? kind name number block).map (LineIssue.moved place) := by
  rw [docstringIssue?_of_none hblock, docstringIssue?_of_none hblock', Option.map_some,
    LineIssue.moved, hnumber]

theorem docstringIssue?_moved_of_some {number number' place above above' : Nat} {line : Line}
    (hblock : firstContent? block = some (above, line))
    (hblock' : firstContent? block' = some (above', line))
    (hnumber : number' + 1 + above' = shift place (number + 1 + above))
    (hfault : docstringFault? line (block'.drop (above' + 1)) =
      docstringFault? line (block.drop (above + 1))) (kind name : String) :
    docstringIssue? kind name number' block' =
      (docstringIssue? kind name number block).map (LineIssue.moved place) := by
  rw [docstringIssue?_of_some hblock, docstringIssue?_of_some hblock', hfault, Option.map_map]
  refine congrArg (Option.map · _) (funext (fun fault => ?_))
  exact congrArg (LineIssue.mk · _) hnumber

theorem docstringIssue?_below {number place : Nat} (h : place < number) (kind name : String)
    (block : List Line) :
    docstringIssue? kind name (number + 1) block =
      (docstringIssue? kind name number block).map (LineIssue.moved place) := by
  cases hblock : firstContent? block with
  | none => exact docstringIssue?_moved_of_none (shift_of_lt h).symm hblock hblock kind name
  | some found =>
      have hnumber : number + 1 + 1 + found.1 = shift place (number + 1 + found.1) := by
        rw [shift_of_lt (by omega), Nat.add_right_comm]
      exact docstringIssue?_moved_of_some hblock hblock hnumber rfl kind name

theorem docstringIssue?_moved_of_contentless {number place : Nat}
    (hplace : number + front.length = place) (hc : hasContent c = false)
    (hfront : firstContent? front = none) (lines : List Line) (kind name : String) :
    docstringIssue? kind name number (front ++ c :: lines) =
      (docstringIssue? kind name number (front ++ lines)).map (LineIssue.moved place) := by
  have hblock := firstContent?_append_of_none hfront lines
  have hblock' := firstContent?_append_of_none hfront (c :: lines)
  rw [firstContent?_cons, hc, if_neg Bool.false_ne_true] at hblock'
  cases hlines : firstContent? lines with
  | none =>
      rw [hlines] at hblock hblock'
      have hnumber : number = shift place number := (shift_of_le (by omega)).symm
      exact docstringIssue?_moved_of_none hnumber hblock hblock' kind name
  | some found =>
      rw [hlines] at hblock hblock'
      refine docstringIssue?_moved_of_some hblock hblock' ?_ ?_ kind name
      · rw [shift_of_lt (by omega)]
        rfl
      · rw [Nat.add_assoc front.length, Nat.add_assoc front.length, List.drop_length_add_append,
          List.drop_length_add_append, List.drop_succ_cons]

/-- **The remark on a docstring only moves**, if no docstring is open where the comment is put. -/
theorem BlockChange.docstringIssue?_eq (h : BlockChange header c front back block block')
    (hc : hasContent c = false)
    (hclosed : AllInBlock (indentWidth header) front → ¬DocstringOpen front)
    {number place : Nat} (hplace : number + front.length = place) (kind name : String) :
    docstringIssue? kind name number block' =
      (docstringIssue? kind name number block).map (LineIssue.moved place) := by
  have hheader : number = shift place number := (shift_of_le (by omega)).symm
  have habove : ∀ {above : Nat}, above < front.length →
      number + 1 + above = shift place (number + 1 + above) :=
    fun hlt => (shift_of_le (by omega)).symm
  cases h with
  | @above block others hfront _ _ _ =>
      -- the block is as it was, and all of it is above the place
      cases hblock : firstContent? block with
      | none => exact docstringIssue?_moved_of_none hheader hblock hblock kind name
      | some found =>
          have hlt := (firstContent?_append_of_some hblock others).2
          have hle : block.length ≤ front.length := by
            rw [hfront, List.length_append]
            exact Nat.le_add_right _ _
          exact docstringIssue?_moved_of_some hblock hblock (habove (Nat.lt_of_lt_of_le hlt hle))
            rfl kind name
  | within hall _ =>
      cases hfront : firstContent? front with
      | none => exact docstringIssue?_moved_of_contentless hplace hc hfront _ kind name
      | some found =>
          -- the first line with content is above the place, and so is the end of the docstring
          obtain ⟨hblock, hlt⟩ := firstContent?_append_of_some hfront (blockUnder header back)
          obtain ⟨hblock', -⟩ := firstContent?_append_of_some hfront (c :: blockUnder header back)
          refine docstringIssue?_moved_of_some hblock hblock' (habove hlt) ?_ kind name
          rw [List.drop_append_of_le_length hlt, List.drop_append_of_le_length hlt,
            docstringFault?_append hfront (hclosed hall),
            docstringFault?_append hfront (hclosed hall)]
  | cut hall _ hbehind =>
      cases hfront : firstContent? front with
      | none =>
          refine docstringIssue?_moved_of_none hheader ?_ hfront kind name
          rw [firstContent?_append_of_none hfront, firstContent?_eq_none hbehind]
          rfl
      | some found =>
          obtain ⟨hblock, hlt⟩ := firstContent?_append_of_some hfront (blockUnder header back)
          refine docstringIssue?_moved_of_some hblock hfront (habove hlt) ?_ kind name
          rw [List.drop_append_of_le_length hlt, docstringFault?_append hfront (hclosed hall)]

end Python

end CodeSurvey
