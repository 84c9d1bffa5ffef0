/-
# Lines without content

A line that is blank or only a comment shows nothing.  Masked it is blank, so no pattern of code
finds anything on it (`scanCode_of_blank`), and outside strings it changes neither the open string
nor the bracket depth.  It is no import, no header of a function and none of a class.

There are two kinds of patterns here and so two arguments.  Those for code are run on the masked
line, and each of them takes a character that is no blank (`Pattern.Visible`).  Those for headers
and statements are run on the line as it is, trimmed, where a comment still has its text; but they
are anchored at a letter, and the line begins with a hash if it begins with anything
(`eq_hash_of_head?_trim`).
-/
import CodeSurvey.Proofs.Pattern.Blank
import CodeSurvey.Proofs.Python.CallTokens
import CodeSurvey.Proofs.Python.Uses

namespace CodeSurvey.Python

open Text Pattern

/-! ## Blank code -/

def LineScan.nothing : LineScan := ⟨[], [], [], [], false⟩

section Blank

variable {code : List Char}

theorem visible_equals : (char '=').Visible := visible_char (by decide)

theorem visible_annotatedPattern : annotatedPattern.Visible := Or.inr visible_equals

theorem visible_tuplePattern : tuplePattern.Visible := Or.inr visible_equals

theorem visible_assignmentPattern : assignmentPattern.Visible := Or.inr visible_equals

theorem visible_lambdaPattern : lambdaPattern.Visible := Or.inr (visible_char (by decide))

theorem visible_callPattern : callPattern.Visible := Or.inr (visible_char (by decide))

theorem visible_fixedIndexPattern : fixedIndexPattern.Visible :=
  Or.inr (visible_char (by decide))

theorem visible_asPattern : asPattern.Visible :=
  Or.inl (Or.inl (Or.inl (Or.inr (visible_literal rfl (by decide)))))

theorem visible_identifier : identifier.Visible :=
  Or.inl fun _ hc => not_isBlank_of_isWordChar (isWordChar_of_isNameStart hc)

theorem visible_namePattern : namePattern.Visible := Or.inl (Or.inr visible_identifier)

theorem visible_forPattern : forPattern.Visible :=
  Or.inl (Or.inr (visible_literal rfl (by decide)))

theorem addLineTargets_of_blank (hblank : ∀ c ∈ code, isBlank c = true) (depth : Nat) :
    addLineTargets code depth = ([], 0) := by
  have hannotated : annotatedTarget? code = none := by
    rw [annotatedTarget?, find?_of_visible visible_annotatedPattern hblank]
  have htuple : tupleTargets? code = none := by
    rw [tupleTargets?, find?_of_visible visible_tuplePattern hblank]
  rw [addLineTargets, hannotated, htuple, ite_self]

theorem assignments_of_blank (hblank : ∀ c ∈ code, isBlank c = true) (depth : Nat) :
    assignments code depth = [] := by
  rw [assignments_eq, assigned, findAll_of_visible visible_assignmentPattern hblank,
    findAll_of_visible visible_forPattern hblank, findAll_of_visible visible_asPattern hblank,
    findAll_of_visible visible_lambdaPattern hblank, addLineTargets_of_blank hblank]
  rfl

theorem scanCode_of_blank (hblank : ∀ c ∈ code, isBlank c = true) (depth : Nat) :
    scanCode code depth = .nothing := by
  have hcalls : callTokens code = [] := by
    rw [callTokens, findAll_of_visible visible_callPattern hblank, List.map_nil]
  have hindex : fixedIndexPattern.occurs code = false := by
    rw [occurs, find?_of_visible visible_fixedIndexPattern hblank]
    rfl
  rw [scanCode, assignments_of_blank hblank, findAll_of_visible visible_namePattern hblank, hcalls,
    hindex]
  rfl

theorem occurrences_of_blank (hblank : ∀ c ∈ code, isBlank c = true) (quote : TripleQuote) :
    occurrences quote.text code = 0 := by
  show countFrom quote.text 0 code = 0
  induction code with
  | nil => rfl
  | cons c code ih =>
      obtain ⟨hc, hcode⟩ := List.forall_mem_cons.1 hblank
      have hprefix : quote.text.isPrefixOf (c :: code) = false := by
        obtain ⟨mark, rest, htext, hmark⟩ : ∃ mark rest, quote.text = mark :: rest ∧
            isBlank mark = false := by
          cases quote <;> exact ⟨_, _, rfl, by decide⟩
        rw [htext, List.isPrefixOf, beq_false_of_ne, Bool.false_and]
        rintro rfl
        rw [hc] at hmark
        cases hmark
      rw [countFrom, if_neg (Nat.lt_irrefl 0), hprefix]
      exact ih hcode

theorem leavesOpen_of_blank (hblank : ∀ c ∈ code, isBlank c = true) (quote : TripleQuote) :
    leavesOpen code quote = false := by
  rw [leavesOpen, occurrences_of_blank hblank]
  rfl

end Blank

/-! ## Lines without content -/

section Contentless

variable {text : Line}

/-- Without the blanks around it, a line without content is empty or a comment. -/
theorem eq_hash_of_head?_trim (h : hasContent text = false) {c : Char}
    (hhead : (trim text).head? = some c) : c = '#' := by
  rw [hasContent, Bool.and_eq_false_iff, Bool.not_eq_false', Bool.not_eq_false'] at h
  rcases h with hblank | hcomment
  · rw [trim_of_isBlankText hblank] at hhead
    cases hhead
  · rw [isCommentLine, hhead, beq_iff_eq] at hcomment
    exact Option.some.inj hcomment

/-- It does not begin with a word. -/
theorem find?_trim_of_contentless (h : hasContent text = false) {pattern : Pattern}
    (hanchored : Anchored pattern) {c : Char}
    (hpattern : Requires (fun place => place.rest.head? = some c) pattern) (hc : c ≠ '#') :
    pattern.find? (trim text) = none := by
  rw [Option.eq_none_iff_forall_ne_some]
  intro m hm
  exact hc (eq_hash_of_head?_trim h (hanchored.requires_of_find? hpattern hm))

theorem requires_word {word : String} {c : Char} {others : List Char}
    (hword : word.toList = c :: others) :
    Requires (fun place => place.rest.head? = some c) (textStart ++ literal word) := by
  intro here out hout
  obtain ⟨start, hstart, hliteral⟩ := mem_runs_append.1 hout
  rw [(mem_runs_textStart.1 hstart).2] at hliteral
  rw [rest_of_mem_literal hliteral, hword]
  rfl

theorem className?_of_contentless (h : hasContent text = false) :
    className? (trim text) = none := by
  have hanchored : Anchored classPattern :=
    Requires.append (Requires.append (Requires.append anchored_textStart _) _) _
  have hword : Requires (fun place => place.rest.head? = some 'c') classPattern :=
    Requires.append (Requires.append (requires_word rfl) _) _
  rw [className?, find?_trim_of_contentless h hanchored hword (by decide)]
  rfl

theorem not_print_of_contentless (h : hasContent text = false) :
    printPattern.occurs (trim text) = false := by
  have hanchored : Anchored printPattern :=
    Requires.append (Requires.append (Requires.append anchored_textStart _) _) _
  have hword : Requires (fun place => place.rest.head? = some 'p') printPattern :=
    Requires.append (Requires.append (requires_word rfl) _) _
  rw [occurs, find?_trim_of_contentless h hanchored hword (by decide)]
  rfl

theorem definition?_of_contentless (h : hasContent text = false) :
    definition? (trim text) = none := by
  rw [Option.eq_none_iff_forall_ne_some]
  intro found hfound
  rw [hasContent_of_definition? hfound] at h
  cases h

theorem importedNames?_of_contentless (h : hasContent text = false) :
    importedNames? (trim text) = none := by
  rw [Option.eq_none_iff_forall_ne_some]
  intro names hnames
  rcases head?_of_importedNames? hnames with hhead | hhead
  · exact absurd (eq_hash_of_head?_trim h hhead) (by decide)
  · exact absurd (eq_hash_of_head?_trim h hhead) (by decide)

/-- **A line without content shows nothing**, whatever the bracket depth is. -/
theorem roleAt_of_contentless (h : hasContent text = false) (depth : Nat) :
    roleAt depth text = .code none .nothing := by
  unfold roleAt
  dsimp only
  rw [importedNames?_of_contentless h, definition?_of_contentless h, className?_of_contentless h,
    scanCode_of_blank (isBlank_of_mem_maskLine h)]

theorem moduleDepth_of_contentless (h : hasContent text = false) (depth : Nat) :
    moduleDepth depth text = depth := by
  rw [moduleDepth, className?_of_contentless h]
  rfl

theorem depthAfter_of_contentless (h : hasContent text = false) (depth : Nat) :
    depthAfter depth (maskLine .hash text) = depth := by
  rw [depthAfter, bracketDelta_of_blank (isBlank_of_mem_maskLine h)]
  simp

theorem openedBy_of_contentless (h : hasContent text = false) : openedBy text = none := by
  rw [openedBy, List.find?_eq_none]
  intro quote _
  rw [leavesOpen_of_blank (isBlank_of_mem_maskLine h)]
  exact Bool.false_ne_true

theorem not_call_of_contentless (h : hasContent text = false) :
    callPattern.occurs (maskLine .hash text) = false := by
  rw [occurs, find?_of_visible visible_callPattern (isBlank_of_mem_maskLine h)]
  rfl

end Contentless

end CodeSurvey.Python
