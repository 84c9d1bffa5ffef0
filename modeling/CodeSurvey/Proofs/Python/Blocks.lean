/-
# Lines in and behind a block

A block goes on as long as its lines are blank or deeper than its header.  So the lines below a
header are those of the block and then a line that leaves it (`blockUnder_append`), and the state of
the scan is that of the block as long as it goes on, and that of module level from the line on that
leaves it (`ScanState.after_block`, `ScanState.after_leaving`).  A header that stands outside
strings and in no block begins a function (`functionAt_mem_outline`).
-/
import CodeSurvey.Proofs.Python.Headers
import CodeSurvey.Proofs.Python.Reading

namespace CodeSurvey.Python

open Text

/-! ## The lines of a block -/

def AllInBlock (indent : Nat) (lines : List Line) : Prop :=
  ∀ line ∈ lines, inBlock indent line = true

/-- The first line, if there is one, is not of the block. -/
def LeavesBlock (indent : Nat) (lines : List Line) : Prop :=
  ∀ line, lines.head? = some line → inBlock indent line = false

theorem lt_indentWidth_of_inBlock {indent : Nat} {line : Line} (h : inBlock indent line = true)
    (hcontent : hasContent line = true) : indent < indentWidth line := by
  rw [hasContent, Bool.and_eq_true, Bool.not_eq_true'] at hcontent
  rwa [inBlock, hcontent.1, Bool.false_or, decide_eq_true_eq] at h

theorem takeWhile_of_leavesBlock {indent : Nat} {lines : List Line}
    (h : LeavesBlock indent lines) : lines.takeWhile (inBlock indent) = [] := by
  cases lines with
  | nil => rfl
  | cons line lines => exact List.takeWhile_cons_of_neg (Bool.eq_false_iff.1 (h line rfl))

theorem blockUnder_append {header : Line} {between : List Line}
    (h : AllInBlock (indentWidth header) between) (below : List Line) :
    blockUnder header (between ++ below) = between ++ blockUnder header below :=
  List.takeWhile_append_of_pos h

theorem blockUnder_append_of_leavesBlock {header : Line} {between below : List Line}
    (h : AllInBlock (indentWidth header) between)
    (hleaves : LeavesBlock (indentWidth header) below) :
    blockUnder header (between ++ below) = between := by
  rw [blockUnder_append h, blockUnder, takeWhile_of_leavesBlock hleaves, List.append_nil]

theorem exists_block_split (indent : Nat) (lines : List Line) :
    ∃ block rest, lines = block ++ rest ∧ AllInBlock indent block ∧ LeavesBlock indent rest := by
  refine ⟨lines.takeWhile (inBlock indent), lines.dropWhile (inBlock indent),
    List.takeWhile_append_dropWhile.symm, fun line hline => List.mem_takeWhile_imp hline, ?_⟩
  intro line hline
  have hnot := List.head?_dropWhile_not (inBlock indent) lines
  rw [hline] at hnot
  exact hnot

theorem leavesBlock_drop (header : Line) (below : List Line) :
    LeavesBlock (indentWidth header) (below.drop (blockSize header below)) := by
  obtain ⟨block, rest, rfl, hblock, hleaves⟩ := exists_block_split (indentWidth header) below
  rw [blockSize, blockUnder_append_of_leavesBlock hblock hleaves, List.drop_left]
  exact hleaves

theorem LeavesBlock.of_le {indent deeper : Nat} {lines : List Line} (h : LeavesBlock indent lines)
    (hle : indent ≤ deeper) : LeavesBlock deeper lines := by
  intro line hline
  have hleaves := h line hline
  rw [inBlock, Bool.or_eq_false_iff, decide_eq_false_iff_not] at hleaves ⊢
  exact ⟨hleaves.1, fun hlt => hleaves.2 (Nat.lt_of_le_of_lt hle hlt)⟩

theorem blockUnder_append_leaving {header : Line} {below : List Line}
    (h : LeavesBlock (indentWidth header) below) (lines : List Line) :
    blockUnder header (lines ++ below) = blockUnder header lines := by
  rw [blockUnder, List.takeWhile_append, takeWhile_of_leavesBlock h, List.append_nil]
  split
  · rename_i hlength
    exact ((List.takeWhile_prefix _).eq_of_length hlength).symm
  · rfl

/-! ## The state of the scan -/

def OpenBlock.after (b : OpenBlock) (lines : List Line) : OpenBlock := lines.foldl OpenBlock.next b

theorem OpenBlock.indent_after (b : OpenBlock) (lines : List Line) :
    (b.after lines).indent = b.indent := by
  induction lines generalizing b with
  | nil => rfl
  | cons line lines ih => exact ih (b.next line)

namespace ScanState

theorem after_block {strings : StringState} {depth : Nat} {b : OpenBlock} {lines : List Line}
    (h : AllInBlock b.indent lines) :
    (mk strings depth (some b)).after lines = mk strings depth (some (b.after lines)) := by
  induction lines generalizing b with
  | nil => rfl
  | cons line lines ih =>
      obtain ⟨hline, hothers⟩ := List.forall_mem_cons.1 h
      show ((mk strings depth (some b)).next line).after lines = _
      rw [next, blockOf?_of_inBlock hline]
      exact ih hothers

theorem after_definition {depth : Nat} {text : Line} {name : String} {parameters : List String}
    (h : roleAt (moduleDepth depth text) text = .definition name parameters)
    (lines : List Line) :
    (mk none depth none).after (text :: lines) =
      (mk (openedBy text) 0 (some ⟨indentWidth text, none, 0⟩)).after lines := by
  show ((mk none depth none).moduleNext text).after lines = _
  have hrole : (mk none depth none).moduleRole text = .definition name parameters := h
  rw [moduleNext_of_definition hrole]
  rfl

theorem after_not_definition {depth : Nat} {text : Line}
    (h : ∀ name parameters, roleAt (moduleDepth depth text) text ≠ .definition name parameters)
    (lines : List Line) :
    (mk none depth none).after (text :: lines) =
      (mk (openedBy text) ((roleAt (moduleDepth depth text) text).depthAfter
        (moduleDepth depth text) text) none).after lines := by
  show ((mk none depth none).moduleNext text).after lines = _
  have hrole : ∀ name parameters,
      (mk none depth none).moduleRole text ≠ .definition name parameters := h
  rw [moduleNext_of_not_definition rfl hrole]
  rfl

theorem after_leaving {strings : StringState} {depth : Nat} {b : OpenBlock} {lines : List Line}
    (h : LeavesBlock b.indent lines) (hne : lines ≠ []) :
    (mk strings depth (some b)).after lines = (mk strings depth none).after lines := by
  obtain ⟨line, lines, rfl⟩ := List.exists_cons_of_ne_nil hne
  show ((mk strings depth (some b)).next line).after lines =
    ((mk strings depth none).next line).after lines
  rw [next, next, blockOf?_of_not_inBlock (h line rfl)]
  rfl

end ScanState

/-! ## Headers of functions -/

/-- A header of a function that is read at module level. -/
structure ScanState.BeginsFunction (state : ScanState) (header : Line) (name : String)
    (parameters : List String) : Prop where
  outside : state.strings = none
  not_in_block : state.blockOf? header = none
  is_definition : definition? (trim header) = some (name, parameters)

theorem ScanState.BeginsFunction.behind_block {strings : StringState} {depth : Nat} {b : OpenBlock}
    {block others : List Line} {header : Line} {name : String} {parameters : List String}
    (hblock : AllInBlock b.indent block) (hleaves : LeavesBlock b.indent others)
    (h : ((ScanState.mk strings depth (some b)).after (block ++ others)).BeginsFunction header name
      parameters) (below : List Line) :
    LeavesBlock b.indent (others ++ header :: below) ∧
      ((ScanState.mk strings depth none).after others).BeginsFunction header name parameters := by
  rw [ScanState.after_append, ScanState.after_block hblock] at h
  cases others with
  | nil =>
      refine ⟨fun first hfirst => ?_, h.outside, rfl, h.is_definition⟩
      obtain rfl := Option.some.inj hfirst
      by_contra hin
      have hsome : (ScanState.mk strings depth (some (b.after block))).blockOf? header =
          some (b.after block) :=
        ScanState.blockOf?_of_inBlock
          (by rw [OpenBlock.indent_after]; exact Bool.not_eq_false _ ▸ hin)
      exact absurd (hsome.symm.trans h.not_in_block) nofun
  | cons line others =>
      rw [ScanState.after_leaving ?_ (List.cons_ne_nil line others)] at h
      · exact ⟨fun first hfirst => hleaves first hfirst, h⟩
      · rw [OpenBlock.indent_after]
        exact hleaves

theorem Outlined.functionAt_mem {strings : StringState} {depth number : Nat} {lines : List Line}
    {steps : List Step} (h : Outlined strings depth number lines steps) {front below : List Line}
    {header : Line} {name : String} {parameters : List String}
    (hlines : lines = front ++ header :: below)
    (hbegins : ((ScanState.mk strings depth none).after front).BeginsFunction header name
      parameters) :
    .function (functionAt (number + front.length) header name parameters below) ∈ steps := by
  induction h generalizing front with
  | done => exact absurd hlines (by simp)
  | @quoted quote depth number text rest steps _ ih =>
      cases front with
      | nil => exact absurd hbegins.outside nofun
      | cons first front =>
          obtain ⟨rfl, hrest⟩ := List.cons.inj hlines
          have hmem := ih hrest hbegins
          rw [Nat.add_assoc, Nat.add_comm 1] at hmem
          exact List.mem_cons_of_mem _ hmem
  | @line depth number text rest steps hrole _ ih =>
      cases front with
      | nil =>
          obtain ⟨rfl, rfl⟩ := List.cons.inj hlines
          exact absurd (roleAt_of_definition? hbegins.is_definition _) (hrole name parameters)
      | cons first front =>
          obtain ⟨rfl, hrest⟩ := List.cons.inj hlines
          rw [ScanState.after_not_definition hrole] at hbegins
          have hmem := ih hrest hbegins
          rw [Nat.add_assoc, Nat.add_comm 1] at hmem
          exact List.mem_cons_of_mem _ hmem
  | @function depth number text fname fparameters rest steps hrole _ ih =>
      cases front with
      | nil =>
          obtain ⟨rfl, rfl⟩ := List.cons.inj hlines
          have hsame := (roleAt_of_definition? hbegins.is_definition _).symm.trans hrole
          obtain ⟨rfl, rfl⟩ := Role.definition.inj hsame
          exact List.mem_cons_self
      | cons first front =>
          obtain ⟨rfl, hrest⟩ := List.cons.inj hlines
          rw [ScanState.after_definition hrole] at hbegins
          obtain ⟨block, others, rfl, hblock, hleaves⟩ :=
            exists_block_split (indentWidth text) front
          -- the header is not of the block, so the block ends in front of it
          obtain ⟨hends, hothers⟩ := hbegins.behind_block hblock hleaves below
          have hsplit : rest = block ++ (others ++ header :: below) :=
            hrest.trans (List.append_assoc ..)
          have hsize : blockSize text rest = block.length := by
            rw [blockSize, hsplit, blockUnder_append_of_leavesBlock hblock hends]
          have hdrop : rest.drop (blockSize text rest) = others ++ header :: below := by
            rw [hsize, hsplit, List.drop_left]
          have hnumber : number + 1 + blockSize text rest + others.length =
              number + (text :: (block ++ others)).length := by
            rw [hsize, List.length_cons, List.length_append]
            omega
          have hmem := ih hdrop hothers
          rw [hnumber] at hmem
          exact List.mem_cons_of_mem _ hmem

/-- **A header in no block begins a function**, which takes the block below the header. -/
theorem functionAt_mem_outline {front below : List Line} {header : Line} {name : String}
    {parameters : List String}
    (h : (stateBehind front).BeginsFunction header name parameters) :
    .function (functionAt (front.length + 1) header name parameters below) ∈
      outline (front ++ header :: below) := by
  have hmem := (outlined_outline (front ++ header :: below)).functionAt_mem rfl h
  rwa [Nat.add_comm] at hmem

end CodeSurvey.Python
