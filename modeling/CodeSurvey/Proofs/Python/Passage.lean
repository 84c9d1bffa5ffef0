/-
# The passage over the lines

The scan is a loop over the indices of the lines, and a function takes the scan behind the end of
its block.  Each turn goes forward and never behind the end of the file (`Cursor.lt_index_turn`,
`Cursor.index_turn_le`), so the loop ends, and it makes the steps of the outline
(`Cursor.steps_eq_outline`).  Hence each line is read once, blocks are slices of the file that lie
apart, and remarks that are made line by line stand on lines in ascending order, so that none of
them is a repeat (`lines_read_once`).
-/
import CodeSurvey.Proofs.FirstSeen
import CodeSurvey.Proofs.Python.Located
import CodeSurvey.Proofs.Python.Numbering

namespace CodeSurvey.Python

open Text

/-! ## The loop -/

/-- Where the loop stands: in front of a line, with the string state and the bracket depth there. -/
structure Cursor where
  index : Nat
  strings : StringState
  depth : Nat

namespace Cursor

/-- In front of the first line. -/
def start : Cursor := ⟨0, none, 0⟩

variable {lines : List Line}

def blockEnd (lines : List Line) (header : Nat) (h : header < lines.length) : Nat :=
  header + blockSize lines[header] (lines.drop (header + 1))

theorem blockEnd_lt {header : Nat} (h : header < lines.length) :
    blockEnd lines header h < lines.length := by
  have hsize : blockSize lines[header] (lines.drop (header + 1)) ≤ lines.length - (header + 1) := by
    rw [← List.length_drop]
    exact (List.takeWhile_prefix _).length_le
  rw [blockEnd]
  omega

/-- One turn of the loop: the step it makes, and the cursor behind it. -/
def turn (lines : List Line) (c : Cursor) (h : c.index < lines.length) : Step × Cursor :=
  let text := lines[c.index]
  let below := lines.drop (c.index + 1)
  if c.strings.inside then
    (.line ⟨c.index + 1, text, .quoted, below⟩, ⟨c.index + 1, c.strings.next text, c.depth⟩)
  else
    match roleAt (moduleDepth c.depth text) text with
    | .definition name parameters =>
      (.function (functionAt (c.index + 1) text name parameters below),
        ⟨blockEnd lines c.index h + 1, c.strings.next text, 0⟩)
    | role =>
      (.line ⟨c.index + 1, text, role, below⟩,
        ⟨c.index + 1, c.strings.next text, role.depthAfter (moduleDepth c.depth text) text⟩)

theorem lt_index_turn {c : Cursor} (h : c.index < lines.length) :
    c.index < (c.turn lines h).2.index := by
  unfold turn
  dsimp only
  split
  · exact Nat.lt_succ_self _
  · split
    · exact Nat.lt_succ_of_le (Nat.le_add_right _ _)
    · exact Nat.lt_succ_self _

theorem index_turn_le {c : Cursor} (h : c.index < lines.length) :
    (c.turn lines h).2.index ≤ lines.length := by
  unfold turn
  dsimp only
  split
  · exact h
  · split
    · exact blockEnd_lt h
    · exact h

/-- The steps of the loop, from a cursor to the end of the file. -/
def steps (lines : List Line) (c : Cursor) : List Step :=
  if h : c.index < lines.length then (c.turn lines h).1 :: steps lines (c.turn lines h).2 else []
termination_by lines.length - c.index
decreasing_by
  have hforward := lt_index_turn h
  omega

theorem steps_eq_outlineFrom (c : Cursor) :
    c.steps lines = outlineFrom c.strings c.depth (c.index + 1) 0 (lines.drop c.index) := by
  fun_induction steps lines c with
  | case1 c h ih =>
      rw [ih, List.drop_eq_getElem_cons h, outlineFrom, if_neg (Nat.lt_irrefl 0)]
      unfold turn
      dsimp only
      split
      · rfl
      · cases roleAt (moduleDepth c.depth lines[c.index]) lines[c.index] with
        | definition name parameters =>
            have hnumber : blockEnd lines c.index h + 1 + 1 =
                c.index + 1 + 1 + blockSize lines[c.index] (lines.drop (c.index + 1)) := by
              rw [blockEnd]
              omega
            have hbelow : lines.drop (blockEnd lines c.index h + 1) =
                (lines.drop (c.index + 1)).drop
                  (blockSize lines[c.index] (lines.drop (c.index + 1))) := by
              rw [List.drop_drop, blockEnd, Nat.add_right_comm]
            dsimp only
            rw [hnumber, hbelow]
            exact congrArg (_ :: ·) (outlineFrom_skip _ _ _ _ _).symm
        | quoted | idle | imports _ | code _ _ => rfl
  | case2 c h =>
      rw [List.drop_eq_nil_of_le (Nat.le_of_not_lt h), outlineFrom]

/-- **The loop makes the steps of the outline.** -/
theorem steps_eq_outline (lines : List Line) : start.steps lines = outline lines :=
  steps_eq_outlineFrom start

end Cursor

/-! ## Slices of the file -/

/-- A part of the lines, between two indices within the file. -/
structure IsSlice (lines : List Line) (start stop : Nat) (slice : List Line) : Prop where
  start_le : start ≤ stop
  stop_le : stop ≤ lines.length
  slice_eq : lines.extract start stop = slice

section Slices

variable {lines : List Line}

theorem isSlice_of_prefix {n : Nat} {below slice : List Line} (hbelow : LinesFrom lines n below)
    (hn : n ≤ lines.length + 1) (hslice : slice <+: below) :
    IsSlice lines (n - 1) (n - 1 + slice.length) slice := by
  obtain ⟨hone, hdrop⟩ := hbelow
  have hlength := hslice.length_le
  rw [← hdrop, List.length_drop] at hlength
  refine ⟨Nat.le_add_right _ _, by omega, ?_⟩
  rw [List.extract_eq_take_drop, hdrop, Nat.add_sub_cancel_left]
  exact (List.prefix_iff_eq_take.1 hslice).symm

/-- The lines of a block are lines of the file, those behind its header, and the line that its
content begins with is one of them. -/
structure IsBlockOf (lines : List Line) (header : Nat) (block : List Line) : Prop where
  slice : IsSlice lines header (header + block.length) block
  content : ∀ above line, firstContent? block = some (above, line) →
    above < block.length ∧ lines[header + above]? = some line

theorem IsSlice.getElem? {start stop i : Nat} {slice : List Line} {line : Line}
    (h : IsSlice lines start stop slice) (hline : slice[i]? = some line) :
    lines[start + i]? = some line := by
  rw [← h.slice_eq, List.extract_eq_take_drop, List.getElem?_take, List.getElem?_drop] at hline
  split at hline
  · exact hline
  · cases hline

theorem isBlockOf_of_prefix {n : Nat} {header : Line} {below block : List Line}
    (hheader : LinesFrom lines n (header :: below)) (hblock : block <+: below) :
    IsBlockOf lines n block := by
  have hline := hheader.lineAt.isLine
  have hslice := isSlice_of_prefix hheader.next (Nat.succ_le_succ hline.2) hblock
  refine ⟨hslice, fun above line hfirst => ?_⟩
  have hcontent := getElem?_of_firstContent? hfirst
  exact ⟨(List.getElem?_eq_some_iff.1 hcontent).1, hslice.getElem? hcontent⟩

theorem Function.Placed.isSlice_lines {f : Function} (h : f.Placed lines) :
    IsSlice lines (f.number - 1) (f.number + f.body.length) f.lines := by
  have hline := h.lineAt.isLine
  have hprefix : f.lines <+: f.header :: f.below :=
    List.cons_prefix_cons.2 ⟨rfl, h.block⟩
  have hslice := isSlice_of_prefix h.linesFrom (Nat.le_succ_of_le hline.2) hprefix
  have hstop : f.number - 1 + f.lines.length = f.number + f.body.length := by
    rw [Function.lines, List.length_cons, List.length_map]
    have hpositive := hline.1
    omega
  rwa [hstop] at hslice

theorem block_functionsIn {f : Function} (hf : f ∈ functionsIn lines) :
    f.block = blockUnder f.header f.below := by
  obtain ⟨number, header, name, parameters, below, rfl⟩ :=
    (outlined_outline lines).exists_functionAt (mem_functionsIn.1 hf)
  exact (List.cons.inj (lines_functionAt number header name parameters below)).2

theorem pairwise_end_functionsIn (lines : List Line) :
    (functionsIn lines).Pairwise (fun f g => f.number + f.body.length < g.number) := by
  refine (pairwise_functionsIn lines).imp_of_mem (fun {f g} hf _ h => ?_)
  refine h _ ?_ _ List.mem_cons_self
  rw [numbers_function hf, List.mem_range'_1]
  omega

end Slices

/-! ## Lines in order -/

section Order

variable {lines : List Line}

theorem numbers_items_sublist (steps : List Step) :
    ((steps.flatMap Step.items).map Item.number).Sublist (steps.flatMap Step.numbers) := by
  induction steps with
  | nil => exact .slnil
  | cons step steps ih =>
      rw [List.flatMap_cons, List.map_append, List.flatMap_cons]
      refine List.Sublist.append ?_ ih
      cases step with
      | line item => exact List.Sublist.refl _
      | function f => exact List.sublist_cons_self _ _

theorem bodies_sublist (steps : List Step) :
    ((steps.filterMap Step.function?).flatMap Function.body).Sublist
      (steps.flatMap Step.items) := by
  induction steps with
  | nil => exact .slnil
  | cons step steps ih =>
      cases step with
      | line item => exact ih.cons _
      | function f => exact (List.Sublist.refl f.body).append ih

theorem pairwise_itemsIn (lines : List Line) :
    (itemsIn lines).Pairwise (fun a b => a.number < b.number) := by
  have hnumbers := List.Pairwise.sublist (numbers_items_sublist (outline lines))
    ((outlined_outline lines).numbers_eq ▸ List.pairwise_lt_range' 1)
  exact List.pairwise_map.1 hnumbers

theorem pairwise_line_filterMap {β : Type} {items : List Item} {remark? : Item → Option β}
    {line : β → Nat} (h : items.Pairwise (fun a b => a.number < b.number))
    (hline : ∀ item b, remark? item = some b → line b = item.number) :
    (items.filterMap remark?).Pairwise (fun a b => line a < line b) := by
  refine h.filterMap _ (fun item other hlt a ha b hb => ?_)
  rw [hline item a ha, hline other b hb]
  exact hlt

theorem nodup_of_pairwise_line {issues : List LineIssue}
    (h : issues.Pairwise (fun a b => a.line < b.line)) : issues.Nodup :=
  h.imp (fun hlt heq => absurd (congrArg LineIssue.line heq) (Nat.ne_of_lt hlt))

theorem line_of_printStatement? {item : Item} {p : PrintStatement}
    (h : item.printStatement? = some p) : p.line = item.number := by
  unfold Item.printStatement? at h
  split at h
  · rw [← Option.some.inj h]
  · cases h

def indexIssuesIn (lines : List Line) : List LineIssue := (itemsIn lines).filterMap Item.indexIssue?

/-- The remarks on loops that call, function by function. -/
def loopIssuesIn (lines : List Line) : List LineIssue :=
  (functionsIn lines).flatMap (·.body.filterMap Item.loopIssue?)

theorem pairwise_indexIssuesIn (lines : List Line) :
    (indexIssuesIn lines).Pairwise (fun a b => a.line < b.line) :=
  pairwise_line_filterMap (pairwise_itemsIn lines) (fun _ _ h => line_of_remark? h)

theorem pairwise_loopIssuesIn (lines : List Line) :
    (loopIssuesIn lines).Pairwise (fun a b => a.line < b.line) := by
  rw [loopIssuesIn, ← List.filterMap_flatMap]
  exact pairwise_line_filterMap ((pairwise_itemsIn lines).sublist (bodies_sublist _))
    (fun _ _ h => line_of_remark? h)

theorem commonErrors_eq_indexIssuesIn (lines : List Line) :
    (analyzeLines lines).commonErrors = indexIssuesIn lines :=
  eraseDups_of_nodup (nodup_of_pairwise_line (pairwise_indexIssuesIn lines))

theorem performanceIssues_eq_loopIssuesIn (lines : List Line) :
    (analyzeLines lines).performanceIssues = loopIssuesIn lines :=
  eraseDups_of_nodup (nodup_of_pairwise_line (pairwise_loopIssuesIn lines))

end Order

/-! ## Every line once -/

/-- The scan of a file reads each of its lines once. -/
structure ReadOnce (lines : List Line) : Prop where
  /-- The loop ends, and it makes the steps of the outline. -/
  loop_eq : Cursor.start.steps lines = outline lines
  /-- A turn of the loop goes forward and stays within the file. -/
  forward : ∀ c (h : Cursor.index c < lines.length),
    c.index < (c.turn lines h).2.index ∧ (c.turn lines h).2.index ≤ lines.length
  /-- The steps are made of the lines of the file, in order. -/
  lines_eq : (outline lines).flatMap Step.lines = lines
  /-- Each line has its number, at module level, as a header or in the body of one function. -/
  numbers_eq : (outline lines).flatMap Step.numbers = List.range' 1 lines.length
  /-- A function is a header with its block. -/
  function_eq : ∀ f ∈ functionsIn lines, f.block = blockUnder f.header f.below ∧
    IsSlice lines (f.number - 1) (f.number + f.body.length) f.lines ∧
    IsBlockOf lines f.number f.block
  functions_apart :
    (functionsIn lines).Pairwise (fun f g => f.number + f.body.length < g.number)
  /-- The block of a class or a loop is in the file, too. -/
  block_eq : ∀ item ∈ itemsIn lines,
    IsBlockOf lines item.number (blockUnder item.text item.below)
  /-- Lines are scanned as code in order, and none twice. -/
  scanned : ((itemsIn lines).filter (·.scan?.isSome)).Pairwise (fun a b => a.number < b.number)
  prints : (analyzeLines lines).printStatements.Pairwise (fun a b => a.line < b.line)
  errors : (analyzeLines lines).commonErrors.Pairwise (fun a b => a.line < b.line)
  loops : (analyzeLines lines).performanceIssues.Pairwise (fun a b => a.line < b.line)
  /-- Dropping repeats drops nothing. -/
  errors_eq : (analyzeLines lines).commonErrors = indexIssuesIn lines
  loops_eq : (analyzeLines lines).performanceIssues = loopIssuesIn lines

/-- **Each line of a source is read once**, in order, and no remark on a line is made twice. -/
theorem lines_read_once (source : String) : ReadOnce (linesOf source) := by
  have hprints := pairwise_line_filterMap (pairwise_itemsIn (linesOf source))
    (fun _ _ h => line_of_printStatement? h)
  constructor
  case loop_eq => exact Cursor.steps_eq_outline _
  case forward => exact fun c h => ⟨Cursor.lt_index_turn h, Cursor.index_turn_le h⟩
  case lines_eq => exact (outlined_outline _).lines_eq
  case numbers_eq => exact (outlined_outline _).numbers_eq
  case function_eq =>
    intro f hf
    have hplaced := placed_of_mem_functions hf
    exact ⟨block_functionsIn hf, hplaced.isSlice_lines,
      isBlockOf_of_prefix hplaced.linesFrom hplaced.block⟩
  case functions_apart => exact pairwise_end_functionsIn _
  case block_eq =>
    intro item hitem
    exact isBlockOf_of_prefix (placed_of_mem_items hitem).linesFrom (List.takeWhile_prefix _)
  case scanned => exact (pairwise_itemsIn _).filter _
  case prints => exact hprints
  case errors =>
    rw [commonErrors_eq_indexIssuesIn]
    exact pairwise_indexIssuesIn _
  case loops =>
    rw [performanceIssues_eq_loopIssuesIn]
    exact pairwise_loopIssuesIn _
  case errors_eq => exact commonErrors_eq_indexIssuesIn _
  case loops_eq => exact performanceIssues_eq_loopIssuesIn _

end CodeSurvey.Python
