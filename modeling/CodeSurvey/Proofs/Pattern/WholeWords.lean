/-
# Whole words

The pieces of a text between separators are its longest runs of other characters, the empty pieces
apart (`mem_splitWhere_iff`).  So the words of a text are its longest runs of word characters
(`mem_wordsOf_iff`).  A text that is cut at a character of no word has the words of both parts
(`wordsOf_append_cons`), so the words of a structured text are those of its fields.

A pattern of a fixed text between word edges occurs where that text is a word, in either case
(`occurs_wholeWord_iff`).
-/
import CodeSurvey.Proofs.Pattern.Repetition
import CodeSurvey.Proofs.Pattern.Searching
import CodeSurvey.Proofs.Text.Pieces
import CodeSurvey.Proofs.Text.Words

namespace CodeSurvey.Text

/-! ## Pieces and runs -/

section Pieces

variable {q : Char → Bool} {text piece : List Char}

theorem splitWhere_cases (q : Char → Bool) (text : List Char) :
    ∃ first after, text = first ++ after ∧ (∀ c ∈ first, q c = false) ∧
      (after = [] ∧ splitWhere q text = [first] ∨
        ∃ c rest, after = c :: rest ∧ q c = true ∧ splitWhere q text = first :: splitWhere q rest) := by
  have hfirst : ∀ c ∈ text.takeWhile (fun c => !q c), q c = false :=
    fun c hc => by simpa using List.mem_takeWhile_imp hc
  have htext : text = text.takeWhile (fun c => !q c) ++ text.dropWhile (fun c => !q c) :=
    List.takeWhile_append_dropWhile.symm
  refine ⟨_, _, htext, hfirst, ?_⟩
  cases hafter : text.dropWhile (fun c => !q c) with
  | nil =>
      rw [hafter, List.append_nil] at htext
      exact .inl ⟨rfl, by rw [← htext]; exact splitWhere_of_free (htext ▸ hfirst)⟩
  | cons c rest =>
      have hc : q c = true := by
        have hnot := Pattern.head?_dropWhile_any (fun c => !q c) text
        rw [hafter] at hnot
        simpa using hnot
      refine .inr ⟨c, rest, rfl, hc, ?_⟩
      rw [hafter] at htext
      have hsplit := splitWhere_append_cons hc (text.takeWhile (fun c => !q c)) rest
      rw [← htext, splitWhere_of_free hfirst] at hsplit
      exact hsplit

/-- A piece that is not empty stands with no other character beside it than separators. -/
theorem isRun_of_mem_splitWhere {text : List Char} (h : piece ∈ splitWhere q text)
    (hne : piece ≠ []) : Pattern.IsRun (fun c => !q c) text piece := by
  obtain ⟨first, after, htext, hfirst, hone | ⟨c, rest, rfl, hc, hmore⟩⟩ := splitWhere_cases q text
  · rw [hone.2, List.mem_singleton] at h
    exact ⟨[], after, by rw [h]; exact htext, hne, fun c hc => by simpa using hfirst c (h ▸ hc),
      rfl, by rw [hone.1]; rfl⟩
  · have hbreak : (!q c) = false := by rw [hc]; rfl
    rw [hmore] at h
    rcases List.mem_cons.1 h with rfl | h
    · exact ⟨[], c :: rest, htext, hne, fun d hd => by simpa using hfirst d hd, rfl, hbreak⟩
    · obtain ⟨front, back, rfl, -, hpiece, hfront, hback⟩ := isRun_of_mem_splitWhere h hne
      refine ⟨first ++ c :: front, back, by rw [htext, List.append_assoc]; rfl, hne, hpiece, ?_,
        hback⟩
      rw [List.getLast?_append, List.getLast?_cons]
      cases hlast : front.getLast? with
      | none => exact hbreak
      | some d =>
          rw [hlast] at hfront
          exact hfront
termination_by text.length
decreasing_by
  subst_vars
  simp only [List.length_append, List.length_cons]
  omega

/-- **The pieces between separators are the longest runs of other characters**, the empty ones
apart. -/
theorem mem_splitWhere_iff (hne : piece ≠ []) :
    piece ∈ splitWhere q text ↔ Pattern.IsRun (fun c => !q c) text piece := by
  constructor
  · exact fun h => isRun_of_mem_splitWhere h hne
  · rintro ⟨front, back, rfl, -, hpiece, hfront, hback⟩
    have hfree : splitWhere q piece = [piece] :=
      splitWhere_of_free (fun c hc => by simpa using hpiece c hc)
    have hhere : piece ∈ splitWhere q (piece ++ back) := by
      cases back with
      | nil => rw [List.append_nil, hfree]; exact List.mem_singleton_self piece
      | cons c back =>
          have hc : q c = true := by simpa using hback
          rw [splitWhere_append_cons hc, hfree]
          exact List.mem_cons_self
    cases hlast : front.getLast? with
    | none =>
        rw [List.getLast?_eq_none_iff.1 hlast]
        exact hhere
    | some c =>
        obtain ⟨before, rfl⟩ := List.getLast?_eq_some_iff.1 hlast
        rw [List.getLast?_concat] at hfront
        have hc : q c = true := by simpa using hfront
        rw [List.append_assoc, List.singleton_append, splitWhere_append_cons hc]
        exact List.mem_append_right _ hhere

end Pieces

/-! ## The words of a text -/

/-- Whether a character parts words. -/
def isWordBreak (c : Char) : Bool := !isWordChar c

def wordsOf (text : List Char) : List (List Char) :=
  (splitWhere isWordBreak text).filter (fun word => !word.isEmpty)

section Words

variable {front back text word : List Char} {c : Char}

theorem wordsOf_nil : wordsOf [] = [] := rfl

/-- **A break parts the words.** -/
theorem wordsOf_append_cons (hc : isWordChar c = false) (front back : List Char) :
    wordsOf (front ++ c :: back) = wordsOf front ++ wordsOf back := by
  have hbreak : isWordBreak c = true := by rw [isWordBreak, hc]; rfl
  rw [wordsOf, splitWhere_append_cons hbreak, List.filter_append]
  rfl

theorem wordsOf_cons (hc : isWordChar c = false) (back : List Char) :
    wordsOf (c :: back) = wordsOf back := wordsOf_append_cons hc [] back

theorem wordsOf_concat (hc : isWordChar c = false) (front : List Char) :
    wordsOf (front ++ [c]) = wordsOf front := by
  rw [wordsOf_append_cons hc, wordsOf_nil, List.append_nil]

/-- What begins with a break may be told apart. -/
theorem wordsOf_append (hback : back.head?.any isWordChar = false) (front : List Char) :
    wordsOf (front ++ back) = wordsOf front ++ wordsOf back := by
  cases back with
  | nil => rw [List.append_nil, wordsOf_nil, List.append_nil]
  | cons c back => rw [wordsOf_append_cons hback, wordsOf_cons hback]

theorem wordsOf_breaks_append (hfront : ∀ c ∈ front, isWordChar c = false) (back : List Char) :
    wordsOf (front ++ back) = wordsOf back := by
  induction front with
  | nil => rfl
  | cons c front ih =>
      obtain ⟨hc, hothers⟩ := List.forall_mem_cons.1 hfront
      rw [List.cons_append, wordsOf_cons hc, ih hothers]

theorem wordsOf_word (hne : word ≠ []) (hword : ∀ c ∈ word, isWordChar c = true) :
    wordsOf word = [word] := by
  have hfree : ∀ c ∈ word, isWordBreak c = false := by
    intro c hc
    rw [isWordBreak, hword c hc]
    rfl
  rw [wordsOf, splitWhere_of_free hfree]
  exact List.filter_cons_of_pos (by simpa using hne)

/-- **The words are the longest runs of word characters.** -/
theorem mem_wordsOf_iff : word ∈ wordsOf text ↔ Pattern.IsRun isWordChar text word := by
  have hchars : (fun c => !isWordBreak c) = isWordChar := funext (fun c => Bool.not_not _)
  rw [wordsOf, List.mem_filter, Bool.not_eq_true', List.isEmpty_eq_false_iff]
  constructor
  · rintro ⟨hmem, hne⟩
    exact hchars ▸ (mem_splitWhere_iff hne).1 hmem
  · intro hrun
    exact ⟨(mem_splitWhere_iff hrun.ne_nil).2 (hchars ▸ hrun), hrun.ne_nil⟩

end Words

end CodeSurvey.Text

namespace CodeSurvey.Pattern

open Text

/-! ## A word between edges -/

section WholeWord

variable {front rest : List Char} {groups : Groups} {out : Place × Groups} {text : String}

theorem mem_runs_one {p : Char → Bool} :
    out ∈ (one p).runs (Place.between front rest, groups) ↔
      ∃ c back, rest = c :: back ∧ p c = true ∧
        out = (Place.between (front ++ [c]) back, groups) := by
  constructor
  · intro h
    obtain ⟨c, hrest, hc⟩ := rest_of_mem_one h
    have hrest : rest = c :: out.1.rest := hrest
    rw [hrest, runs_one hc, List.mem_singleton] at h
    exact ⟨c, out.1.rest, hrest, hc, h⟩
  · rintro ⟨c, back, rfl, hc, rfl⟩
    rw [runs_one hc]
    exact List.mem_singleton_self _

theorem mem_runs_literalAnyCase :
    out ∈ (literalAnyCase text).runs (Place.between front rest, groups) ↔
      ∃ taken back, rest = taken ++ back ∧ lowerAscii taken = text.toList ∧
        out = (Place.between (front ++ taken) back, groups) := by
  unfold literalAnyCase
  generalize text.toList = cs
  induction cs generalizing front rest with
  | nil =>
      rw [List.foldr_nil, runs, List.mem_singleton]
      constructor
      · rintro rfl
        exact ⟨[], rest, rfl, rfl, by rw [List.append_nil]⟩
      · rintro ⟨taken, back, rfl, htaken, rfl⟩
        rw [List.map_eq_nil_iff.1 htaken, List.append_nil]
        rfl
  | cons c cs ih =>
      rw [List.foldr_cons]
      constructor
      · intro h
        obtain ⟨mid, hmid, hout⟩ := mem_runs_append.1 h
        obtain ⟨d, behind, rfl, hd, rfl⟩ := mem_runs_one.1 hmid
        obtain ⟨taken, back, rfl, htaken, rfl⟩ := ih.1 hout
        refine ⟨d :: taken, back, rfl, ?_, by rw [← List.append_cons]⟩
        rw [lowerAscii, List.map_cons, beq_iff_eq.1 hd]
        exact congrArg _ htaken
      · rintro ⟨taken, back, rfl, htaken, rfl⟩
        obtain ⟨d, others, rfl, rfl, hothers⟩ := List.map_eq_cons_iff.1 htaken
        refine mem_runs_append.2
          ⟨_, mem_runs_one.2 ⟨d, others ++ back, rfl, beq_self_eq_true _, rfl⟩, ?_⟩
        exact ih.2 ⟨others, back, rfl, hothers, by rw [← List.append_cons]⟩

theorem isSome_matchAt?_iff {pattern : Pattern} {place : Place} :
    (pattern.matchAt? place).isSome = true ↔ ∃ out, out ∈ pattern.runs (place, []) := by
  rw [matchAt?, Option.isSome_map, List.isSome_head?]
  constructor
  · exact List.exists_mem_of_ne_nil _
  · rintro ⟨_, hout⟩
    exact List.ne_nil_of_mem hout

theorem isWordChar_of_toLower {c : Char} (h : c.toLower.isLower = true) : isWordChar c = true := by
  have halpha : c.isAlpha = true := by
    show (c.isUpper || c.isLower) = true
    rw [Bool.or_eq_true]
    unfold Char.toLower at h
    split at h
    · rename_i hupper
      exact .inl (decide_eq_true hupper)
    · exact .inr h
  refine isWordChar_of_isNameStart ?_
  rw [isNameStart, halpha, Bool.true_or]

/-- Between its edges such a text has word characters only. -/
theorem isWordChar_of_lowerAscii {name taken : List Char} (hname : name.all Char.isLower = true)
    (htaken : lowerAscii taken = name) : ∀ c ∈ taken, isWordChar c = true := by
  intro c hc
  have hmem : c.toLower ∈ name := htaken ▸ List.mem_map_of_mem hc
  exact isWordChar_of_toLower (List.all_eq_true.1 hname _ hmem)

theorem mem_runs_wholeWord {name : String} :
    out ∈ (wordEdge ++ literalAnyCase name ++ wordEdge).runs (Place.between front rest, groups) ↔
      (Place.between front rest).atWordEdge = true ∧ ∃ taken back, rest = taken ++ back ∧
        lowerAscii taken = name.toList ∧ (Place.between (front ++ taken) back).atWordEdge = true ∧
          out = (Place.between (front ++ taken) back, groups) := by
  constructor
  · intro h
    obtain ⟨last, hlast, hend⟩ := mem_runs_append.1 h
    obtain ⟨first, hfirst, hname⟩ := mem_runs_append.1 hlast
    obtain ⟨hbegins, rfl⟩ := mem_runs_wordEdge.1 hfirst
    obtain ⟨hends, rfl⟩ := mem_runs_wordEdge.1 hend
    obtain ⟨taken, back, rfl, htaken, rfl⟩ := mem_runs_literalAnyCase.1 hname
    exact ⟨hbegins, taken, back, rfl, htaken, hends, rfl⟩
  · rintro ⟨hbegins, taken, back, rfl, htaken, hends, rfl⟩
    refine mem_runs_append.2 ⟨_, mem_runs_append.2 ⟨_, mem_runs_wordEdge.2 ⟨hbegins, rfl⟩,
      mem_runs_literalAnyCase.2 ⟨taken, back, rfl, htaken, rfl⟩⟩, ?_⟩
    exact mem_runs_wordEdge.2 ⟨hends, rfl⟩

theorem edges_iff {taken back : List Char} (hne : taken ≠ [])
    (hword : ∀ c ∈ taken, isWordChar c = true) :
    (Place.between front (taken ++ back)).atWordEdge = true ∧
        (Place.between (front ++ taken) back).atWordEdge = true ↔
      front.getLast?.any isWordChar = false ∧ back.head?.any isWordChar = false := by
  obtain ⟨c, others, rfl⟩ := List.exists_cons_of_ne_nil hne
  rw [atWordEdge_between, atWordEdge_between, any_getLast?_append_of_word hne hword,
    List.cons_append, List.head?_cons, Option.any_some, hword c List.mem_cons_self, Bool.bne_true,
    Bool.true_bne, Bool.not_eq_true', Bool.not_eq_true']

/-- **A text between word edges is a word**, in either case. -/
theorem occurs_wholeWord_iff {name : String} (hname : name.toList.all Char.isLower = true)
    (hne : name.toList ≠ []) {text : List Char} :
    (wordEdge ++ literalAnyCase name ++ wordEdge).occurs text = true ↔
      ∃ word ∈ wordsOf text, lowerAscii word = name.toList := by
  have hnonempty : ∀ taken, lowerAscii taken = name.toList → taken ≠ [] := by
    rintro taken htaken rfl
    exact hne htaken.symm
  rw [occurs_iff]
  constructor
  · rintro ⟨front, rest, rfl, hm⟩
    obtain ⟨out, hout⟩ := isSome_matchAt?_iff.1 hm
    obtain ⟨hbegins, taken, back, rfl, htaken, hends, -⟩ := mem_runs_wholeWord.1 hout
    have hword := isWordChar_of_lowerAscii hname htaken
    obtain ⟨hfront, hback⟩ := (edges_iff (hnonempty taken htaken) hword).1 ⟨hbegins, hends⟩
    exact ⟨taken, mem_wordsOf_iff.2 ⟨front, back, rfl, hnonempty taken htaken, hword, hfront, hback⟩,
      htaken⟩
  · rintro ⟨word, hmem, hlower⟩
    obtain ⟨front, back, rfl, hne, hword, hfront, hback⟩ := mem_wordsOf_iff.1 hmem
    obtain ⟨hbegins, hends⟩ := (edges_iff hne hword).2 ⟨hfront, hback⟩
    have hruns : (Place.between (front ++ word) back, []) ∈
        (wordEdge ++ literalAnyCase name ++ wordEdge).runs (Place.between front (word ++ back), []) :=
      mem_runs_wholeWord.2 ⟨hbegins, word, back, rfl, hlower, hends, rfl⟩
    exact ⟨front, word ++ back, rfl, isSome_matchAt?_iff.2 ⟨_, hruns⟩⟩

end WholeWord

end CodeSurvey.Pattern
