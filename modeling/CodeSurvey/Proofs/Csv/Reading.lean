/-
# Reading rows back

A reader of delimited rows, set beside the writer.  It goes by the format alone: a separator ends a
field, a newline ends a row, between quotation marks every character stands for itself, and a mark
in quotes is written twice.  Where readers of such files differ it refuses: at a quotation mark
within a bare field, at a carriage return outside quotes, and at a last row without its newline.

What the writer writes is read back as it was (`read_rows`), whatever the fields hold.  The reader
keeps no track of whether a field was quoted, so the two forms of a field meet in one lemma,
`readFrom_field`.
-/
import CodeSurvey.Report.File

namespace CodeSurvey.Csv

/-! ## The reader -/

/-- Where the reader stands in a field. -/
inductive FieldState where
  /-- Nothing of the field is read yet. -/
  | fresh
  /-- Within a field that stands without quotation marks. -/
  | bare
  /-- Between quotation marks. -/
  | quoted
  /-- Behind a mark within quotes: it closes the field, unless another follows. -/
  | closing
deriving DecidableEq, Repr

/-- Read rows on from within one: `field` is what the field holds so far, latest first, and `row`
the fields before it. -/
def Dialect.readFrom (d : Dialect) (state : FieldState) (field : List Char) (row : List String) :
    List Char → Option (List (List String))
  | [] => if state = .fresh ∧ row = [] then some [] else none
  | c :: rest =>
    if state = .quoted then
      if c = '"' then d.readFrom .closing field row rest
      else d.readFrom .quoted (c :: field) row rest
    else if c = '"' then
      if state = .fresh then d.readFrom .quoted [] row rest
      else if state = .closing then d.readFrom .quoted ('"' :: field) row rest
      else none
    else if c = d.separator then
      d.readFrom .fresh [] (row ++ [String.ofList field.reverse]) rest
    else if c = '\n' then
      (d.readFrom .fresh [] [] rest).map ((row ++ [String.ofList field.reverse]) :: ·)
    else if c = '\r' ∨ state = .closing then none
    else d.readFrom .bare (c :: field) row rest

/-- The rows of a text. -/
def Dialect.read (d : Dialect) (text : String) : Option (List (List String)) :=
  d.readFrom .fresh [] [] text.toList

/-! ## Fields -/

section Fields

variable {d : Dialect} {state : FieldState}

theorem readFrom_separator (hmark : d.separator ≠ '"') (hstate : state ≠ .quoted)
    (field : List Char) (row : List String) (rest : List Char) :
    d.readFrom state field row (d.separator :: rest) =
      d.readFrom .fresh [] (row ++ [String.ofList field.reverse]) rest := by
  rw [Dialect.readFrom, if_neg hstate, if_neg hmark, if_pos rfl]

theorem readFrom_newline (hnewline : d.separator ≠ '\n') (hstate : state ≠ .quoted)
    (field : List Char) (row : List String) (rest : List Char) :
    d.readFrom state field row ('\n' :: rest) =
      (d.readFrom .fresh [] [] rest).map ((row ++ [String.ofList field.reverse]) :: ·) := by
  rw [Dialect.readFrom, if_neg hstate, if_neg (by decide), if_neg (Ne.symm hnewline), if_pos rfl]

theorem readFrom_bare {text : List Char} (h : ∀ c ∈ text, d.forcesQuotes c = false)
    (hstate : state = .fresh ∨ state = .bare) (field : List Char) (row : List String)
    (rest : List Char) :
    ∃ state' ≠ FieldState.quoted, d.readFrom state field row (text ++ rest) =
      d.readFrom state' (text.reverse ++ field) row rest := by
  induction text generalizing state field with
  | nil => exact ⟨state, by rcases hstate with rfl | rfl <;> exact nofun, rfl⟩
  | cons c text ih =>
      have hc := h c List.mem_cons_self
      simp only [Dialect.forcesQuotes, Bool.or_eq_false_iff, beq_eq_false_iff_ne] at hc
      obtain ⟨⟨⟨hseparator, hmark⟩, hreturn⟩, hnewline⟩ := hc
      have hquoted : state ≠ .quoted := by rcases hstate with rfl | rfl <;> exact nofun
      have hclosing : state ≠ .closing := by rcases hstate with rfl | rfl <;> exact nofun
      obtain ⟨state', hstate', hrest⟩ :=
        ih (fun c' hc' => h c' (List.mem_cons_of_mem _ hc')) (.inr rfl) (c :: field)
      refine ⟨state', hstate', ?_⟩
      rw [List.cons_append, Dialect.readFrom, if_neg hquoted, if_neg hmark, if_neg hseparator,
        if_neg hnewline, if_neg (by rw [not_or]; exact ⟨hreturn, hclosing⟩), hrest,
        List.reverse_cons, List.append_assoc]
      rfl

theorem readFrom_quoted (text field : List Char) (row : List String) (rest : List Char) :
    d.readFrom .quoted field row (text.flatMap doubled ++ '"' :: rest) =
      d.readFrom .closing (text.reverse ++ field) row rest := by
  induction text generalizing field with
  | nil => rw [List.flatMap_nil, List.nil_append, Dialect.readFrom, if_pos rfl, if_pos rfl]; rfl
  | cons c text ih =>
      have hstep : d.readFrom .quoted field row
          (doubled c ++ (text.flatMap doubled ++ '"' :: rest)) =
            d.readFrom .quoted (c :: field) row (text.flatMap doubled ++ '"' :: rest) := by
        rw [doubled]
        split
        · rename_i hmark
          rw [hmark]
          rfl
        · rename_i hmark
          rw [List.singleton_append, Dialect.readFrom, if_pos rfl, if_neg hmark]
      rw [List.flatMap_cons, List.append_assoc, hstep, ih, List.reverse_cons, List.append_assoc]
      rfl

theorem readFrom_field (text : List Char) (row : List String) (rest : List Char) :
    ∃ state ≠ FieldState.quoted, d.readFrom .fresh [] row (d.field text ++ rest) =
      d.readFrom state text.reverse row rest := by
  rw [Dialect.field]
  split
  · refine ⟨.closing, nofun, ?_⟩
    rw [List.cons_append, List.cons_append, List.append_assoc, List.singleton_append,
      Dialect.readFrom, if_neg nofun, if_pos rfl, if_pos rfl, readFrom_quoted, List.append_nil]
  · rename_i hnone
    have htext : ∀ c ∈ text, d.forcesQuotes c = false := by
      simpa only [List.any_eq_true, not_exists, not_and, Bool.not_eq_true] using hnone
    obtain ⟨state, hstate, hread⟩ := readFrom_bare htext (.inl rfl) [] row rest
    exact ⟨state, hstate, by rw [hread, List.append_nil]⟩

end Fields

/-! ## Rows -/

section Rows

variable {d : Dialect} (hmark : d.separator ≠ '"') (hnewline : d.separator ≠ '\n')

include hmark hnewline

theorem readFrom_joined {fields : List String} (hfields : fields ≠ []) (row : List String)
    (rest : List Char) :
    d.readFrom .fresh [] row (d.joined (fields.map String.toList) ++ '\n' :: rest) =
      (d.readFrom .fresh [] [] rest).map ((row ++ fields) :: ·) := by
  induction fields generalizing row with
  | nil => exact absurd rfl hfields
  | cons field others ih =>
      cases others with
      | nil =>
          obtain ⟨state, hstate, hread⟩ :=
            readFrom_field (d := d) field.toList row ('\n' :: rest)
          rw [List.map_singleton, Dialect.joined, hread, readFrom_newline hnewline hstate,
            List.reverse_reverse, String.ofList_toList]
      | cons second others =>
          obtain ⟨state, hstate, hread⟩ := readFrom_field (d := d) field.toList row
            (d.separator :: (d.joined ((second :: others).map String.toList) ++ '\n' :: rest))
          have hjoined : d.joined ((field :: second :: others).map String.toList) =
              d.field field.toList ++
                d.separator :: d.joined ((second :: others).map String.toList) := rfl
          rw [hjoined, List.append_assoc, List.cons_append, hread,
            readFrom_separator hmark hstate, List.reverse_reverse, String.ofList_toList,
            ih (List.cons_ne_nil _ _), List.append_assoc]
          rfl

/-- **Rows are read back.**  Whatever their fields hold, if none is without a field. -/
theorem read_rows {rows : List (List String)} (hrows : ∀ row ∈ rows, row ≠ []) :
    d.read (d.rows rows) = some rows := by
  rw [Dialect.read, Dialect.rows, String.toList_ofList]
  induction rows with
  | nil => rfl
  | cons row rows ih =>
      rw [List.flatMap_cons, Dialect.row, List.append_assoc, List.singleton_append,
        readFrom_joined hmark hnewline (hrows row List.mem_cons_self),
        ih (fun row' hrow' => hrows row' (List.mem_cons_of_mem _ hrow'))]
      rfl

end Rows

end CodeSurvey.Csv

namespace CodeSurvey

/-- **A summary is read back from its rows**: the names of the columns, then one row for each item
of each section, in order, with the fields as they were. -/
theorem summary_read_from_rows (s : StampedSummary) :
    Report.csvDialect.read (Report.csvText s) =
      some (["section_id", "title", "severity", "item"] ::
        s.sections.flatMap (fun x => x.items.map (fun item =>
          [x.id, x.title, x.severity.name, item]))) := by
  refine Csv.read_rows (by decide) (by decide) (fun row hrow => ?_)
  rcases List.mem_cons.1 hrow with rfl | hrow
  · exact List.cons_ne_nil _ _
  · obtain ⟨x, -, hrow⟩ := List.mem_flatMap.1 hrow
    obtain ⟨item, -, rfl⟩ := List.mem_map.1 hrow
    exact List.cons_ne_nil _ _

/-- Separators, marks and line breaks within a field, and a field without text. -/
example : Report.csvDialect.read (Report.csvDialect.rows [["a;b", "say \"x\"", "1\r\n2", ""]]) =
    some [["a;b", "say \"x\"", "1\r\n2", ""]] := by decide

end CodeSurvey
