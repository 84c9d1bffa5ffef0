/-
# Blocks are nested or apart

The block of a header is the longest run of lines below it that are blank or deeper: the lines up to
an index are such a run if and only if the block goes on to it (`Cursor.le_blockEnd_iff`).  A line
of the block that is not blank is deeper than the header, so what is deeper than that line is deeper
than the header, too, and the block of the line is a run below the header (`Cursor.blockEnd_le`).
So of two blocks, one is in the other or they are apart, and the lines that are searched for the
calls of a loop are lines of the function that the loop is in (`blocks_laminar`).
-/
import Mathlib.Order.Interval.Set.Basic
import CodeSurvey.Proofs.Python.Calls
import CodeSurvey.Proofs.Python.Passage

namespace CodeSurvey.Python

open Text

/-! ## The longest run -/

theorem le_blockSize_iff {header : Line} {below : List Line} {n : Nat} (hn : n ≤ below.length) :
    n ≤ blockSize header below ↔ AllInBlock (indentWidth header) (below.take n) := by
  constructor
  · intro hsize line hline
    have hbegins : below.take n <+: blockUnder header below := by
      rw [← take_blockSize]
      exact List.take_prefix_take_left hsize
    exact List.mem_takeWhile_imp (hbegins.subset hline)
  · intro hblock
    have happend := blockUnder_append hblock (below.drop n)
    rw [List.take_append_drop] at happend
    rw [blockSize, happend, List.length_append, List.length_take, Nat.min_eq_left hn]
    exact Nat.le_add_right _ _

namespace Cursor

variable {lines : List Line} {header inner : Nat}

/-- The lines behind a header up to an index are blank or deeper than the header. -/
def GoesOn (lines : List Line) (header : Nat) (h : header < lines.length) (stop : Nat) : Prop :=
  ∀ i line, header < i → i ≤ stop → lines[i]? = some line →
    isBlankText line = true ∨ indentWidth lines[header] < indentWidth line

def blockRange (lines : List Line) (header : Nat) (h : header < lines.length) : Set Nat :=
  Set.Icc header (blockEnd lines header h)

theorem le_blockEnd (h : header < lines.length) : header ≤ blockEnd lines header h :=
  Nat.le_add_right _ _

theorem allInBlock_take_iff (h : header < lines.length) (n : Nat) :
    AllInBlock (indentWidth lines[header]) ((lines.drop (header + 1)).take n) ↔
      GoesOn lines header h (header + n) := by
  constructor
  · intro hblock i line hlt hle hline
    have hat : ((lines.drop (header + 1)).take n)[i - (header + 1)]? = some line := by
      rw [List.getElem?_take, if_pos (by omega), List.getElem?_drop]
      rwa [Nat.add_sub_cancel' hlt]
    have hin := hblock line (List.mem_of_getElem? hat)
    simpa [inBlock] using hin
  · intro hrun line hline
    obtain ⟨k, hk⟩ := List.mem_iff_getElem?.1 hline
    rw [List.getElem?_take] at hk
    split at hk
    · rename_i hlt
      rw [List.getElem?_drop] at hk
      have hin := hrun (header + 1 + k) line (by omega) (by omega) hk
      simpa [inBlock] using hin
    · cases hk

/-- **The block of a header is the longest run** of lines that are blank or deeper. -/
theorem le_blockEnd_iff (h : header < lines.length) {stop : Nat} (hle : header ≤ stop)
    (hstop : stop < lines.length) :
    stop ≤ blockEnd lines header h ↔ GoesOn lines header h stop := by
  obtain ⟨n, rfl⟩ := Nat.exists_eq_add_of_le hle
  have hn : n ≤ (lines.drop (header + 1)).length := by
    rw [List.length_drop]
    omega
  rw [blockEnd, Nat.add_le_add_iff_left, le_blockSize_iff hn, allInBlock_take_iff]

theorem isSlice_block (h : header < lines.length) :
    IsSlice lines (header + 1) (blockEnd lines header h + 1)
      (blockUnder lines[header] (lines.drop (header + 1))) := by
  have hbelow : LinesFrom lines (header + 2) (lines.drop (header + 1)) :=
    ⟨Nat.le_add_left 1 _, rfl⟩
  have hslice := isSlice_of_prefix hbelow (by omega) (List.takeWhile_prefix
    (inBlock (indentWidth lines[header])))
  have hstop : header + 2 - 1 + blockSize lines[header] (lines.drop (header + 1)) =
      blockEnd lines header h + 1 := by
    rw [blockEnd]
    omega
  exact hstop ▸ hslice

/-! ## Nested blocks -/

theorem blockEnd_le (h : header < lines.length) (hinner : inner < lines.length)
    (hlt : header < inner) (hcontent : isBlankText lines[inner] = false)
    (hin : inner ≤ blockEnd lines header h) :
    blockEnd lines inner hinner ≤ blockEnd lines header h := by
  have houterRun := (le_blockEnd_iff h (Nat.le_of_lt hlt) hinner).1 hin
  have hinnerRun : GoesOn lines inner hinner (blockEnd lines inner hinner) :=
    (le_blockEnd_iff hinner (le_blockEnd hinner) (blockEnd_lt hinner)).1 (Nat.le_refl _)
  have hdeeper : indentWidth lines[header] < indentWidth lines[inner] := by
    have hline := houterRun inner _ hlt (Nat.le_refl _) (List.getElem?_eq_getElem hinner)
    simpa [hcontent] using hline
  have hle : header ≤ blockEnd lines inner hinner :=
    Nat.le_trans (Nat.le_of_lt hlt) (le_blockEnd hinner)
  refine (le_blockEnd_iff h hle (blockEnd_lt hinner)).2 ?_
  intro i line hbehind hstop hline
  rcases Nat.lt_or_ge inner i with hbelow | habove
  · exact (hinnerRun i line hbelow hstop hline).imp id (Nat.lt_trans hdeeper)
  · exact houterRun i line hbehind habove hline

/-- A block is left by neither a blank line nor a deeper one, whatever they are indented with. -/
example : Cursor.blockEnd ["def f():".toList, "    for x in y:".toList, "\t g(x)".toList, [],
    "    return".toList] 1 (by decide) = 3 := by decide

theorem blockRange_subset (h : header < lines.length) (hinner : inner < lines.length)
    (hlt : header < inner) (hcontent : isBlankText lines[inner] = false)
    (hin : inner ≤ blockEnd lines header h) :
    blockRange lines inner hinner ⊆ blockRange lines header h :=
  Set.Icc_subset_Icc (Nat.le_of_lt hlt) (blockEnd_le h hinner hlt hcontent hin)

/-- Of a block that begins behind the end of another, no line is in both. -/
theorem not_mem_blockRange (h : header < lines.length) (hinner : inner < lines.length)
    (hbehind : blockEnd lines header h < inner) {i : Nat} (hi : i ∈ blockRange lines header h) :
    i ∉ blockRange lines inner hinner := by
  intro hother
  exact absurd (Nat.lt_of_lt_of_le hbehind hother.1) (Nat.not_lt_of_le hi.2)

end Cursor

/-! ## Loops in their functions -/

section Loops

variable {lines : List Line}

/-- A loop stands in a function, and what is searched for its calls are lines of the function. -/
structure LoopWithin (lines : List Line) (f : Function) (loop : Item) (header inner : Nat)
    (h : header < lines.length) (hinner : inner < lines.length) : Prop where
  number_eq : f.number = header + 1
  loopNumber_eq : loop.number = inner + 1
  lines_eq : IsSlice lines header (Cursor.blockEnd lines header h + 1) f.lines
  searched : loop.loopHasCall =
    (lines.extract (inner + 1) (Cursor.blockEnd lines inner hinner + 1)).any
      (fun line => callPattern.occurs (maskLine .hash line))
  nested : header < inner ∧
    Cursor.blockRange lines inner hinner ⊆ Cursor.blockRange lines header h

theorem exists_index_of_linesFrom {n : Nat} {text : Line} {below : List Line}
    (hfrom : LinesFrom lines n (text :: below)) :
    ∃ (header : Nat) (h : header < lines.length), n = header + 1 ∧ lines[header] = text ∧
      lines.drop (header + 1) = below := by
  obtain ⟨hn, hdrop⟩ := hfrom
  obtain ⟨header, rfl⟩ := Nat.exists_eq_add_of_le' hn
  rw [Nat.add_sub_cancel] at hdrop
  have hlt : header < lines.length := by
    by_contra hge
    rw [List.drop_eq_nil_of_le (Nat.le_of_not_lt hge)] at hdrop
    cases hdrop
  rw [List.drop_eq_getElem_cons hlt] at hdrop
  obtain ⟨htext, hbelow⟩ := List.cons.inj hdrop
  exact ⟨header, hlt, rfl, htext, hbelow⟩

theorem length_body {f : Function} (hf : f ∈ functionsIn lines) :
    f.body.length = blockSize f.header f.below := by
  rw [blockSize, ← block_functionsIn hf, Function.block, List.length_map]

theorem number_mem_body {f : Function} (hf : f ∈ functionsIn lines) {item : Item}
    (hitem : item ∈ f.body) :
    f.number < item.number ∧ item.number ≤ f.number + blockSize f.header f.below := by
  have hnumbers := numbers_function hf
  rw [Step.numbers, List.range'_succ] at hnumbers
  have hmem : item.number ∈ f.body.map Item.number := List.mem_map_of_mem hitem
  rw [(List.cons.inj hnumbers).2, List.mem_range'_1] at hmem
  have hlength := length_body hf
  omega

theorem isBlankText_of_isLoop {item : Item} (hloop : item.isLoop = true) :
    isBlankText item.text = false := by
  rw [← isEmpty_trim, List.isEmpty_eq_false_iff]
  intro hnil
  have hbegins := (isLoop_iff.1 hloop).begins
  rw [hnil] at hbegins
  rcases hbegins with ⟨rest, hrest, -⟩ | ⟨rest, hrest, -⟩
  · exact absurd hrest nofun
  · exact absurd hrest nofun

/-- **What is searched for the calls of a loop does not leave its function.** -/
theorem loop_within {f : Function} (hf : f ∈ functionsIn lines) {loop : Item}
    (hmem : loop ∈ f.body) (hloop : loop.isLoop = true) :
    ∃ header inner h hinner, LoopWithin lines f loop header inner h hinner := by
  have hplaced := placed_of_mem_functions hf
  obtain ⟨header, h, hnumber, htext, hbelow⟩ := exists_index_of_linesFrom hplaced.linesFrom
  obtain ⟨inner, hinner, hloopNumber, hloopText, hloopBelow⟩ :=
    exists_index_of_linesFrom (hplaced.body loop hmem).linesFrom
  have hend : Cursor.blockEnd lines header h = header + blockSize f.header f.below := by
    rw [Cursor.blockEnd, htext, hbelow]
  obtain ⟨hbehind, hbefore⟩ := number_mem_body hf hmem
  have hlt : header < inner := by omega
  have hcontent : isBlankText lines[inner] = false := by
    rw [hloopText]
    exact isBlankText_of_isLoop hloop
  refine ⟨header, inner, h, hinner, hnumber, hloopNumber, ?_, ?_, hlt, ?_⟩
  · have hslice := hplaced.isSlice_lines
    rw [length_body hf, hnumber, Nat.add_sub_cancel, Nat.add_right_comm] at hslice
    rwa [hend]
  · rw [(Cursor.isSlice_block hinner).slice_eq, hloopText, hloopBelow]
    rfl
  · exact Cursor.blockRange_subset h hinner hlt hcontent (by omega)

end Loops

/-! ## All blocks of a file -/

/-- The blocks of a file by indentation are nested or apart. -/
structure Laminar (lines : List Line) : Prop where
  /-- A block is in the file. -/
  in_file : ∀ header (h : header < lines.length),
    header ≤ Cursor.blockEnd lines header h ∧ Cursor.blockEnd lines header h < lines.length ∧
      IsSlice lines (header + 1) (Cursor.blockEnd lines header h + 1)
        (blockUnder lines[header] (lines.drop (header + 1)))
  /-- A block is the longest run of lines behind its header that are blank or deeper. -/
  longest : ∀ header (h : header < lines.length) stop, header ≤ stop → stop < lines.length →
    (stop ≤ Cursor.blockEnd lines header h ↔ Cursor.GoesOn lines header h stop)
  /-- The block of a line that is in another block is in that block, too; the line is not blank, and
  of the header not even this is asked. -/
  nested : ∀ header inner (h : header < lines.length) (hinner : inner < lines.length),
    header < inner → isBlankText lines[inner] = false → inner ≤ Cursor.blockEnd lines header h →
      Cursor.blockEnd lines inner hinner ≤ Cursor.blockEnd lines header h ∧
        Cursor.blockRange lines inner hinner ⊆ Cursor.blockRange lines header h
  /-- A block that begins behind another has no line with it. -/
  apart : ∀ header inner (h : header < lines.length) (hinner : inner < lines.length),
    Cursor.blockEnd lines header h < inner →
      ∀ i ∈ Cursor.blockRange lines header h, i ∉ Cursor.blockRange lines inner hinner
  /-- What is searched for the calls of a loop are lines of its function. -/
  loops : ∀ f ∈ functionsIn lines, ∀ loop ∈ f.body, loop.isLoop = true →
    ∃ header inner h hinner, LoopWithin lines f loop header inner h hinner

/-- **Blocks by indentation are laminar.** -/
theorem blocks_laminar (lines : List Line) : Laminar lines := by
  constructor
  case in_file =>
    intro header h
    exact ⟨Cursor.le_blockEnd h, Cursor.blockEnd_lt h, Cursor.isSlice_block h⟩
  case longest =>
    intro header h stop hle hstop
    exact Cursor.le_blockEnd_iff h hle hstop
  case nested =>
    intro header inner h hinner hlt hcontent hin
    exact ⟨Cursor.blockEnd_le h hinner hlt hcontent hin,
      Cursor.blockRange_subset h hinner hlt hcontent hin⟩
  case apart =>
    intro header inner h hinner hbehind
    exact fun i hi => Cursor.not_mem_blockRange h hinner hbehind hi
  case loops =>
    intro f hf loop hmem hloop
    exact loop_within hf hmem hloop

end CodeSurvey.Python
