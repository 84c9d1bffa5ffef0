/-
# Byte offsets and lines

A place in a text has its line in two ways: the text is cut at newlines and the line has an index,
or the newlines are counted among the bytes in front of an offset.  In UTF-8 the byte of a newline
is part of no other character, so an offset may fall inside a character and still tell its line
(`newlinesBefore_eq_count`).  The columns of a line go from its first byte up to its newline, so a
line has one column more than it has bytes, and the columns of all lines take up the text with no
gap and no overlap.

A text is a last line, or a line, a newline and the text below (`lines_induction`).  An offset is
then a column of the first line (`lineAt_first`), or an offset of the text below, numbered one more
there (`lineAt_below`).
-/
import CodeSurvey.Proofs.PathOrder
import CodeSurvey.Proofs.Text.Pieces
import CodeSurvey.Scan.Css

namespace CodeSurvey.Text

def bytes (text : List Char) : List UInt8 := utf8Bytes (String.ofList text)

def byteLength (text : List Char) : Nat := (bytes text).length

/-- The offset that a line begins at: the lines above take their bytes, and one for each newline. -/
def lineStart (lines : List Line) (i : Nat) : Nat :=
  Count.total ((lines.take i).map (fun line => byteLength line + 1))

/-! ## Bytes -/

theorem bytes_nil : bytes [] = [] := by
  rw [bytes, utf8Bytes_eq, String.toList_ofList, List.flatMap_nil]

theorem bytes_cons (c : Char) (text : List Char) :
    bytes (c :: text) = String.utf8EncodeChar c ++ bytes text := by
  rw [bytes, bytes, utf8Bytes_eq, utf8Bytes_eq, String.toList_ofList, String.toList_ofList,
    List.flatMap_cons]

theorem byteLength_nil : byteLength [] = 0 := by
  rw [byteLength, bytes_nil, List.length_nil]

theorem byteLength_cons (c : Char) (text : List Char) :
    byteLength (c :: text) = c.utf8Size + byteLength text := by
  rw [byteLength, bytes_cons, List.length_append, String.length_utf8EncodeChar, byteLength]

theorem byteLength_newline (text : List Char) :
    byteLength ('\n' :: text) = 1 + byteLength text :=
  byteLength_cons '\n' text

theorem byteLength_append (front back : List Char) :
    byteLength (front ++ back) = byteLength front + byteLength back := by
  induction front with
  | nil => rw [byteLength_nil, Nat.zero_add, List.nil_append]
  | cons c front ih => rw [List.cons_append, byteLength_cons, byteLength_cons, ih, Nat.add_assoc]

theorem newline_mem_utf8EncodeChar_iff {c : Char} :
    (0x0A : UInt8) ∈ String.utf8EncodeChar c ↔ c = '\n' := by
  have hc : c = '\n' ↔ c.val.toNat = 10 := by
    rw [Char.ext_iff, ← UInt32.toNat_inj]
    rfl
  rw [hc]
  -- All bytes of a longer form are above those of ASCII.
  simp only [String.utf8EncodeChar]
  split_ifs <;>
    simp only [List.mem_cons, List.not_mem_nil, or_false, ← UInt8.toNat_inj, UInt8.toNat_ofNat',
      UInt8.toNat_ofNat] <;>
    omega

/-! ## Newlines in front of an offset -/

theorem newlinesBefore_zero (text : List Char) : newlinesBefore text 0 = 0 := by
  cases text with
  | nil => rfl
  | cons c text => rw [newlinesBefore, if_pos rfl]

theorem newlinesBefore_cons {c : Char} {offset : Nat} (h : offset ≠ 0) (text : List Char) :
    newlinesBefore (c :: text) offset =
      [c].count '\n' + newlinesBefore text (offset - c.utf8Size) := by
  rw [newlinesBefore, if_neg h, List.count_singleton]
  simp only [beq_iff_eq]

/-- **Newlines are counted among the bytes in front of an offset**, which may be inside a
character. -/
theorem newlinesBefore_eq_count (text : List Char) (offset : Nat) :
    newlinesBefore text offset = ((bytes text).take offset).count 0x0A := by
  induction text generalizing offset with
  | nil => rw [newlinesBefore, bytes_nil, List.take_nil, List.count_nil]
  | cons c text ih =>
      rcases Nat.eq_zero_or_pos offset with rfl | hpos
      · rw [newlinesBefore_zero, List.take_zero, List.count_nil]
      have hfirst : [c].count '\n' = ((String.utf8EncodeChar c).take offset).count 0x0A := by
        by_cases hc : c = '\n'
        · have hbyte : String.utf8EncodeChar '\n' = [0x0A] := rfl
          rw [hc, hbyte, List.take_of_length_le hpos]
          rfl
        · have hnone : (0x0A : UInt8) ∉ (String.utf8EncodeChar c).take offset := fun h =>
            hc (newline_mem_utf8EncodeChar_iff.1 (List.mem_of_mem_take h))
          rw [List.count_eq_zero.2 hnone, List.count_eq_zero, List.mem_singleton]
          exact Ne.symm hc
      rw [newlinesBefore_cons (Nat.ne_of_gt hpos), ih, hfirst, bytes_cons, List.take_append,
        List.count_append, String.length_utf8EncodeChar]

theorem newlinesBefore_append (front back : List Char) (offset : Nat) :
    newlinesBefore (front ++ back) (byteLength front + offset) =
      front.count '\n' + newlinesBefore back offset := by
  induction front with
  | nil => rw [byteLength_nil, List.count_nil, Nat.zero_add, Nat.zero_add, List.nil_append]
  | cons c front ih =>
      have hpos := c.utf8Size_pos
      have hbehind : byteLength (c :: front) + offset - c.utf8Size = byteLength front + offset := by
        rw [byteLength_cons]
        omega
      have hne : byteLength (c :: front) + offset ≠ 0 := by
        rw [byteLength_cons]
        omega
      rw [List.cons_append, newlinesBefore_cons hne, hbehind, ih, ← Nat.add_assoc,
        ← List.count_append]
      rfl

/-! ## Lines of offsets -/

theorem lineAt_eq_count (text : List Char) (offset : Nat) :
    lineAt text offset = ((bytes text).take offset).count 0x0A + 1 := by
  rw [lineAt, newlinesBefore_eq_count]

theorem lineAt_mono (text : List Char) {offset further : Nat} (h : offset ≤ further) :
    lineAt text offset ≤ lineAt text further := by
  rw [lineAt_eq_count, lineAt_eq_count]
  exact Nat.add_le_add_right ((List.take_sublist_take_left h).count_le 0x0A) 1

theorem lineAt_append (front back : List Char) (offset : Nat) :
    lineAt (front ++ back) (byteLength front + offset) =
      front.count '\n' + lineAt back offset := by
  rw [lineAt, newlinesBefore_append, lineAt, Nat.add_assoc]

theorem lineAt_byteLength (front back : List Char) :
    lineAt (front ++ back) (byteLength front) = front.count '\n' + 1 := by
  rw [lineAt, ← Nat.add_zero (byteLength front), newlinesBefore_append, newlinesBefore_zero,
    Nat.add_zero]

theorem lineAt_first {line : Line} (hline : '\n' ∉ line) (back : List Char) {column : Nat}
    (hcolumn : column ≤ byteLength line) : lineAt (line ++ back) column = 1 := by
  have hle : lineAt (line ++ back) column ≤ 1 := by
    calc lineAt (line ++ back) column
        ≤ lineAt (line ++ back) (byteLength line) := lineAt_mono _ hcolumn
      _ = line.count '\n' + 1 := lineAt_byteLength line back
      _ = 1 := by rw [List.count_eq_zero.2 hline]
  exact Nat.le_antisymm hle (Nat.le_add_left 1 _)

theorem lineAt_below {line : Line} (hline : '\n' ∉ line) (below : List Char) (offset : Nat) :
    lineAt (line ++ '\n' :: below) (byteLength line + 1 + offset) = lineAt below offset + 1 := by
  have hsplit : line ++ '\n' :: below = (line ++ ['\n']) ++ below := by
    rw [List.append_assoc]
    rfl
  have hlength : byteLength line + 1 = byteLength (line ++ ['\n']) := by
    rw [byteLength_append, byteLength_newline, byteLength_nil]
  rw [hsplit, hlength, lineAt_append, List.count_append, List.count_eq_zero.2 hline,
    List.count_singleton_self, Nat.zero_add, Nat.add_comm]

theorem lineAt_beyond {text : List Char} {offset : Nat} (h : byteLength text ≤ offset) :
    lineAt text offset = (splitLines text).length := by
  obtain ⟨beyond, rfl⟩ := Nat.exists_eq_add_of_le h
  have hend := lineAt_append text [] beyond
  have hone : lineAt [] beyond = 1 := rfl
  rwa [List.append_nil, hone, ← length_splitLines] at hend

/-! ## Columns of lines -/

theorem lines_induction {motive : List Char → Prop}
    (last : ∀ line, '\n' ∉ line → motive line)
    (ended : ∀ line below, '\n' ∉ line → motive below → motive (line ++ '\n' :: below))
    (text : List Char) : motive text := by
  -- `front` is what has been read of the first line.
  suffices h : ∀ front, '\n' ∉ front → motive (front ++ text) from h [] List.not_mem_nil
  induction text with
  | nil =>
      intro front hfront
      rw [List.append_nil]
      exact last front hfront
  | cons c text ih =>
      intro front hfront
      by_cases hc : c = '\n'
      · rw [hc]
        exact ended front text hfront (ih [] List.not_mem_nil)
      · have hlonger : '\n' ∉ front ++ [c] := by
          rw [List.mem_append, List.mem_singleton]
          exact not_or.2 ⟨hfront, Ne.symm hc⟩
        have hmoved := ih (front ++ [c]) hlonger
        rwa [List.append_assoc] at hmoved

theorem lineStart_zero (lines : List Line) : lineStart lines 0 = 0 := rfl

theorem lineStart_succ (line : Line) (lines : List Line) (i : Nat) :
    lineStart (line :: lines) (i + 1) = byteLength line + 1 + lineStart lines i := rfl

/-- **A column of a line has the number of the line.** -/
theorem lineAt_column {text : List Char} {i column : Nat} {line : Line}
    (hline : (splitLines text)[i]? = some line) (hcolumn : column ≤ byteLength line) :
    lineAt text (lineStart (splitLines text) i + column) = i + 1 := by
  induction text using lines_induction generalizing i with
  | last first hfirst =>
      rw [splitLines_plain hfirst] at hline ⊢
      cases i with
      | zero =>
          obtain rfl := Option.some.inj hline
          have hone := lineAt_first hfirst [] hcolumn
          rwa [List.append_nil, ← Nat.zero_add column] at hone
      | succ i => cases hline
  | ended first below hfirst ih =>
      rw [splitLines_plain_newline hfirst] at hline ⊢
      cases i with
      | zero =>
          obtain rfl := Option.some.inj hline
          rw [lineStart_zero, Nat.zero_add]
          exact lineAt_first hfirst _ hcolumn
      | succ i => rw [lineStart_succ, Nat.add_assoc, lineAt_below hfirst, ih hline]

/-- An offset inside a character is on the line of the character. -/
example : [0, 1, 2, 3, 4, 99].map (lineAt ['é', '\n', 'x']) = [1, 1, 1, 2, 2, 2] := by decide

/-- Every offset of a text is a column of one of its lines. -/
theorem exists_column {text : List Char} {offset : Nat} (h : offset ≤ byteLength text) :
    ∃ i line, (splitLines text)[i]? = some line ∧
      ∃ column ≤ byteLength line, offset = lineStart (splitLines text) i + column := by
  induction text using lines_induction generalizing offset with
  | last first hfirst =>
      rw [splitLines_plain hfirst]
      exact ⟨0, first, rfl, offset, h, (Nat.zero_add offset).symm⟩
  | ended first below hfirst ih =>
      rw [splitLines_plain_newline hfirst]
      rcases Nat.lt_or_ge (byteLength first) offset with hbehind | hwithin
      · obtain ⟨inner, rfl⟩ := Nat.exists_eq_add_of_le hbehind
        have hinner : inner ≤ byteLength below := by
          rw [byteLength_append, byteLength_newline] at h
          omega
        obtain ⟨i, line, hline, column, hcolumn, hoffset⟩ := ih hinner
        exact ⟨i + 1, line, hline, column, hcolumn, by rw [hoffset, lineStart_succ, Nat.add_assoc]⟩
      · exact ⟨0, first, rfl, offset, hwithin, (Nat.zero_add offset).symm⟩

theorem lineOf_eq_lineAt (text : List Char) (place : Nat) :
    Css.lineOf text place = lineAt text (byteLength (text.take place)) := by
  have hplace := lineAt_byteLength (text.take place) (text.drop place)
  rw [List.take_append_drop] at hplace
  rw [hplace, Css.lineOf]

/-- The lines of byte offsets agree with the lines that a text is cut into. -/
structure OffsetsAgree (text : List Char) : Prop where
  /-- The line of an offset counts the newlines among the bytes in front of it. -/
  counted : ∀ offset, lineAt text offset = ((bytes text).take offset).count 0x0A + 1
  /-- A column of a line has the number of the line; the last column is that of the newline. -/
  column : ∀ i (h : i < (splitLines text).length), ∀ column ≤ byteLength (splitLines text)[i],
    lineAt text (lineStart (splitLines text) i + column) = i + 1
  /-- Every offset of the text is a column of a line. -/
  covered : ∀ offset ≤ byteLength text, ∃ i, ∃ h : i < (splitLines text).length,
    ∃ column ≤ byteLength (splitLines text)[i], offset = lineStart (splitLines text) i + column
  mono : ∀ offset further, offset ≤ further → lineAt text offset ≤ lineAt text further
  /-- At the end of the text and beyond it, an offset has the number of the last line. -/
  beyond : ∀ offset, byteLength text ≤ offset → lineAt text offset = (splitLines text).length
  /-- The places of selectors and bodies are numbered by their bytes. -/
  places : ∀ place, Css.lineOf text place = lineAt text (byteLength (text.take place))

/-- **Byte offsets and lines agree**, whatever characters the text is of. -/
theorem offsets_agree_with_lines (text : List Char) : OffsetsAgree text := by
  constructor
  case counted => exact lineAt_eq_count text
  case column =>
    intro i h column hcolumn
    exact lineAt_column (List.getElem?_eq_getElem h) hcolumn
  case covered =>
    intro offset hoffset
    obtain ⟨i, line, hline, column, hcolumn, hsum⟩ := exists_column hoffset
    obtain ⟨hlt, rfl⟩ := List.getElem?_eq_some_iff.1 hline
    exact ⟨i, hlt, column, hcolumn, hsum⟩
  case mono => exact fun offset further h => lineAt_mono text h
  case beyond => exact fun offset h => lineAt_beyond h
  case places => exact lineOf_eq_lineAt text

end CodeSurvey.Text
