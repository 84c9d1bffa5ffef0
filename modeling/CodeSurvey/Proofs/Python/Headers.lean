/-
# Headers are told by their first letter

A header of a function begins with `def` or `async`, an import with `import` or `from`.  So a
header is no import, though imports are looked for first, and it is no blank line and no comment.

A line that is an import has that role, whatever else it may be.  So that a header gets its role, at
any depth (`roleAt_of_definition?`), needs that no import is read from it, and the first letter is
enough for that: the patterns for headers and imports are anchored, so what they require of the text
they require of its front.
-/
import Mathlib.Data.List.TakeWhile
import CodeSurvey.Proofs.Pattern.Runs
import CodeSurvey.Scan.PythonOutline

namespace CodeSurvey.Python

open Text Pattern

theorem anchored_definitionPattern : Anchored definitionPattern := by
  unfold definitionPattern
  iterate 11 refine Requires.append ?_ _
  exact anchored_textStart

theorem requires_definitionPattern :
    Requires (fun place => place.rest.head? = some 'd' ∨ place.rest.head? = some 'a')
      definitionPattern := by
  unfold definitionPattern
  iterate 9 refine Requires.append ?_ _
  intro here out hout
  obtain ⟨mid, hmid, hdef⟩ := mem_runs_append.1 hout
  obtain ⟨first, hfirst, hasync⟩ := mem_runs_append.1 hmid
  rw [(mem_runs_textStart.1 hfirst).2] at hasync
  rcases mem_runs_optional.1 hasync with hasync | rfl
  · obtain ⟨behind, hasync, -⟩ := mem_runs_append.1 hasync
    exact Or.inr (by rw [rest_of_mem_literal hasync]; rfl)
  · exact Or.inl (by rw [rest_of_mem_literal hdef]; rfl)

theorem head?_of_definition? {trimmed : List Char} {found : String × List String}
    (h : definition? trimmed = some found) :
    trimmed.head? = some 'd' ∨ trimmed.head? = some 'a' := by
  obtain ⟨m, hm, -⟩ := Option.map_eq_some_iff.1 h
  exact anchored_definitionPattern.requires_of_find? requires_definitionPattern hm

theorem anchored_fromImportPattern : Anchored fromImportPattern := by
  unfold fromImportPattern
  iterate 7 refine Requires.append ?_ _
  exact anchored_textStart

theorem requires_fromImportPattern :
    Requires (fun place => place.rest.head? = some 'f') fromImportPattern := by
  unfold fromImportPattern
  iterate 6 refine Requires.append ?_ _
  intro here out hout
  obtain ⟨first, hfirst, hfrom⟩ := mem_runs_append.1 hout
  rw [(mem_runs_textStart.1 hfirst).2] at hfrom
  rw [rest_of_mem_literal hfrom]
  rfl

theorem head?_of_head?_before {p : Char → Bool} {text : List Char} {c : Char}
    (h : (before p text).head? = some c) : text.head? = some c := by
  cases text with
  | nil => exact h
  | cons d rest =>
      rw [before, List.takeWhile_cons] at h
      split at h
      · exact h
      · cases h

theorem eq_append_of_stripPrefix? {piece text rest : List Char}
    (h : stripPrefix? piece text = some rest) : text = piece ++ rest := by
  induction piece generalizing text with
  | nil => exact Option.some.inj h
  | cons c piece ih =>
      cases text with
      | nil => cases h
      | cons d text =>
          rw [stripPrefix?] at h
          split at h
          · rename_i hc
            rw [hc, ih h, List.cons_append]
          · cases h

theorem import_or_from_of_importedNames? {trimmed : List Char} {names : List String}
    (h : importedNames? trimmed = some names) :
    (∃ rest, stripPrefix? "import ".toList (before (· == '#') trimmed) = some rest) ∨
      ∃ m, fromImportPattern.find? (before (· == '#') trimmed) = some m := by
  obtain ⟨segments, hsegments, -⟩ := Option.map_eq_some_iff.1 h
  unfold importSegments? at hsegments
  dsimp only at hsegments
  split at hsegments
  · rename_i rest hstrip
    exact Or.inl ⟨rest, hstrip⟩
  · split at hsegments
    · cases hsegments
    · rename_i m hm
      exact Or.inr ⟨m, hm⟩

theorem head?_of_importedNames? {trimmed : List Char} {names : List String}
    (h : importedNames? trimmed = some names) :
    trimmed.head? = some 'i' ∨ trimmed.head? = some 'f' := by
  rcases import_or_from_of_importedNames? h with ⟨rest, hstrip⟩ | ⟨m, hm⟩
  · have hhead : (before (· == '#') trimmed).head? = some 'i' := by
      rw [eq_append_of_stripPrefix? hstrip]
      rfl
    exact Or.inl (head?_of_head?_before hhead)
  · exact Or.inr (head?_of_head?_before
      (anchored_fromImportPattern.requires_of_find? requires_fromImportPattern hm))

theorem roleAt_of_definition? {text : Line} {name : String} {parameters : List String}
    (h : definition? (trim text) = some (name, parameters)) (depth : Nat) :
    roleAt depth text = .definition name parameters := by
  unfold roleAt
  dsimp only
  split
  · rename_i names hnames
    have hdef := head?_of_definition? h
    rcases head?_of_importedNames? hnames with hhead | hhead <;> simp [hhead] at hdef
  · rw [h]

theorem trim_of_isBlankText {text : Line} (h : isBlankText text = true) : trim text = [] := by
  have hnil : trimStartOf isBlank text = [] :=
    List.dropWhile_eq_nil_iff.2 (fun c hc => List.all_eq_true.1 h c hc)
  rw [trim, hnil]
  rfl

/-- A header is neither blank nor only a comment. -/
theorem hasContent_of_definition? {text : Line} {found : String × List String}
    (h : definition? (trim text) = some found) : hasContent text = true := by
  have hhead := head?_of_definition? h
  rw [hasContent, Bool.and_eq_true, Bool.not_eq_true', Bool.not_eq_true']
  constructor
  · rw [Bool.eq_false_iff]
    intro hblank
    rw [trim_of_isBlankText hblank] at hhead
    simp at hhead
  · rw [isCommentLine]
    rcases hhead with hhead | hhead <;> rw [hhead] <;> rfl

end CodeSurvey.Python
