/-
# Imports that are noted

An import is noted under its name: a new name goes to the end, and one that is imported again keeps
its place and takes the later line.  So the notes on a source are the imported names without their
repeats, each with the line of its last import (`noted_importsIn`).

The notes are made by a fold over the items of a source, and within an item over the names that it
imports.  `Noted` is what holds of the notes after any of them.  It is kept by noting one more name
(`Noted.noteImport`), whether that name is new or not, and this is the only place where the two
cases are told apart.
-/
import CodeSurvey.Proofs.FirstSeen
import CodeSurvey.Proofs.Python.Numbering

namespace CodeSurvey.Python

open Text

/-! ## What is imported -/

def Item.imports (item : Item) : List ImportedName :=
  match item.role with
  | .imports names => names.map (fun name => ⟨name, item.number⟩)
  | _ => []

def importsIn (lines : List Line) : List ImportedName :=
  (itemsIn lines).flatMap Item.imports

theorem mem_names_imports {item : Item} {word : String} :
    word ∈ item.imports.map (·.name) ↔ ∃ names, item.role = .imports names ∧ word ∈ names := by
  obtain ⟨number, text, role, below⟩ := item
  cases role with
  | imports names =>
      have hnames : (Item.imports ⟨number, text, .imports names, below⟩).map (·.name) = names := by
        rw [Item.imports, List.map_map]
        exact List.map_id names
      rw [hnames]
      constructor
      · exact fun hword => ⟨names, rfl, hword⟩
      · rintro ⟨others, hrole, hword⟩
        exact Role.imports.inj hrole ▸ hword
  | quoted | idle | definition _ _ | code _ _ =>
      constructor
      · exact fun hword => absurd hword List.not_mem_nil
      · rintro ⟨_, hrole, -⟩
        cases hrole

theorem mem_names_importsIn {lines : List Line} {word : String} :
    word ∈ (importsIn lines).map (·.name) ↔
      ∃ item ∈ itemsIn lines, ∃ names, item.role = .imports names ∧ word ∈ names := by
  rw [importsIn, List.map_flatMap, List.mem_flatMap]
  exact exists_congr (fun _ => and_congr Iff.rfl mem_names_imports)

/-! ## One import more -/

theorem noteImport_of_mem {imports : List ImportedName} {name : String}
    (h : name ∈ imports.map (·.name)) (line : Nat) :
    noteImport imports name line =
      imports.map (fun i => if i.name == name then { i with line := line } else i) := by
  obtain ⟨i, hi, hname⟩ := List.mem_map.1 h
  have hsame : (i.name == name) = true := beq_iff_eq.2 hname
  exact if_pos (List.any_eq_true.2 ⟨i, hi, hsame⟩)

theorem noteImport_of_not_mem {imports : List ImportedName} {name : String}
    (h : name ∉ imports.map (·.name)) (line : Nat) :
    noteImport imports name line = imports ++ [⟨name, line⟩] := by
  refine if_neg (fun hany => h ?_)
  obtain ⟨i, hi, hname⟩ := List.any_eq_true.1 hany
  exact List.mem_map.2 ⟨i, hi, eq_of_beq hname⟩

theorem names_noteImport_of_mem {imports : List ImportedName} {name : String}
    (h : name ∈ imports.map (·.name)) (line : Nat) :
    (noteImport imports name line).map (·.name) = imports.map (·.name) := by
  rw [noteImport_of_mem h, List.map_map]
  refine List.map_congr_left ?_
  intro i _
  rw [Function.comp_apply]
  split <;> rfl

/-! ## All imports -/

def IsLastImport (imports : List ImportedName) (i : ImportedName) : Prop :=
  ∃ front back, imports = front ++ i :: back ∧ ∀ j ∈ back, j.name ≠ i.name

/-- The notes on imports: each name once, in the order of the first imports, with the line of the
last. -/
structure Noted (imports notes : List ImportedName) : Prop where
  names : notes.map (·.name) = (imports.map (·.name)).eraseDups
  last : ∀ i ∈ notes, IsLastImport imports i

section Imports

variable {imports notes : List ImportedName} {i k : ImportedName}

theorem IsLastImport.concat_self : IsLastImport (imports ++ [i]) i :=
  ⟨imports, [], rfl, nofun⟩

theorem IsLastImport.concat (h : IsLastImport imports k) (hne : i.name ≠ k.name) :
    IsLastImport (imports ++ [i]) k := by
  obtain ⟨front, back, rfl, hback⟩ := h
  refine ⟨front, back ++ [i], by rw [List.append_assoc, List.cons_append], ?_⟩
  exact List.forall_mem_append.2 ⟨hback, List.forall_mem_singleton.2 hne⟩

theorem Noted.mem_names_iff (h : Noted imports notes) {name : String} :
    name ∈ notes.map (·.name) ↔ name ∈ imports.map (·.name) := by
  rw [h.names, List.mem_eraseDups]

theorem Noted.noteImport (h : Noted imports notes) (i : ImportedName) :
    Noted (imports ++ [i]) (noteImport notes i.name i.line) := by
  by_cases hseen : i.name ∈ notes.map (·.name)
  · constructor
    case names =>
      rw [names_noteImport_of_mem hseen, h.names, List.map_append, List.map_singleton,
        eraseDups_concat_of_mem (h.mem_names_iff.1 hseen)]
    case last =>
      rw [noteImport_of_mem hseen]
      refine List.forall_mem_map.2 (fun k hk => ?_)
      split
      · rename_i hsame
        have hnow : ({ k with line := i.line } : ImportedName) = i := by rw [eq_of_beq hsame]
        rw [hnow]
        exact .concat_self
      · rename_i hother
        exact (h.last k hk).concat (fun heq => hother (beq_iff_eq.2 heq.symm))
  · rw [noteImport_of_not_mem hseen]
    constructor
    case names =>
      have hnew : i.name ∉ imports.map (·.name) := fun hmem => hseen (h.mem_names_iff.2 hmem)
      rw [List.map_append, List.map_append, h.names]
      exact (eraseDups_concat_of_not_mem hnew).symm
    case last =>
      refine List.forall_mem_append.2 ⟨fun k hk => ?_, List.forall_mem_singleton.2 .concat_self⟩
      refine (h.last k hk).concat (fun heq => hseen ?_)
      rw [heq]
      exact List.mem_map_of_mem hk

theorem Noted.foldl_noteImport (h : Noted imports notes) (names : List String) (line : Nat) :
    Noted (imports ++ names.map (fun name => ⟨name, line⟩))
      (names.foldl (fun notes name => Python.noteImport notes name line) notes) := by
  induction names generalizing imports notes with
  | nil =>
      rw [List.map_nil, List.append_nil]
      exact h
  | cons name names ih =>
      rw [List.map_cons, List.append_cons, List.foldl_cons]
      exact ih (h.noteImport ⟨name, line⟩)

theorem Noted.noteImports (h : Noted imports notes) (item : Item) :
    Noted (imports ++ item.imports) (noteImports notes item) := by
  obtain ⟨number, text, role, below⟩ := item
  cases role with
  | imports names => exact h.foldl_noteImport names number
  | quoted | idle | definition _ _ | code _ _ =>
      rw [Item.imports, List.append_nil]
      exact h

theorem Noted.foldl_noteImports (h : Noted imports notes) (items : List Item) :
    Noted (imports ++ items.flatMap Item.imports) (items.foldl Python.noteImports notes) := by
  induction items generalizing imports notes with
  | nil =>
      rw [List.flatMap_nil, List.append_nil]
      exact h
  | cons item items ih =>
      rw [List.flatMap_cons, ← List.append_assoc, List.foldl_cons]
      exact ih (h.noteImports item)

end Imports

/-- **Each import is noted once**, where its name is first imported and with its last line. -/
theorem noted_importsIn (lines : List Line) :
    Noted (importsIn lines) ((itemsIn lines).foldl noteImports []) := by
  have hbegin : Noted [] [] := ⟨rfl, fun _ h => absurd h List.not_mem_nil⟩
  exact hbegin.foldl_noteImports _

end CodeSurvey.Python
