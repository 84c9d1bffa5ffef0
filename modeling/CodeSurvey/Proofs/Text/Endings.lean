/-
# Line endings

A line may end in a newline, in a carriage return, or in both.  `Written lines text` says that a
text is one way of writing lines down, each ending chosen on its own.  The only choice barred is a
lone carriage return in front of a newline, since the two together are one ending.

Reading lines and writing them are inverse to each other (`written_iff`): the lines of a text are
the only ones that it can be a writing of.  Every pass reads the text with its endings made uniform,
so no finding depends on the choice.
-/
import CodeSurvey.Proofs.Text.Pieces
import CodeSurvey.Summary

namespace CodeSurvey.Text

/-! ## Writing lines -/

/-- How a line may end. -/
inductive Ending where
  | newline
  | returnNewline
  | loneReturn
deriving DecidableEq, Repr

def Ending.chars : Ending → List Char
  | .newline => ['\n']
  | .returnNewline => ['\r', '\n']
  | .loneReturn => ['\r']

abbrev IsPlain (line : Line) : Prop := '\r' ∉ line ∧ '\n' ∉ line

/-- The texts that lines can be written as.  The last line has no ending. -/
inductive Written : List Line → List Char → Prop
  | last {line : Line} : IsPlain line → Written [line] line
  | ended {line : Line} {lines : List Line} {text : List Char} (ending : Ending) :
      IsPlain line → Written lines text →
      (ending = .loneReturn → text.head? ≠ some '\n') →
      Written (line :: lines) (line ++ (ending.chars ++ text))

theorem isPlain_nil : IsPlain [] := ⟨List.not_mem_nil, List.not_mem_nil⟩

theorem IsPlain.cons {c : Char} {line : Line} (hreturn : c ≠ '\r') (hnewline : c ≠ '\n')
    (h : IsPlain line) : IsPlain (c :: line) :=
  ⟨List.not_mem_cons_of_ne_of_not_mem hreturn.symm h.1,
    List.not_mem_cons_of_ne_of_not_mem hnewline.symm h.2⟩

/-! ## Uniform endings -/

theorem unifyEndings_cons {c : Char} (h : c ≠ '\r') (text : List Char) :
    unifyEndings (c :: text) = c :: unifyEndings text := by
  rw [unifyEndings]
  · rintro rest rfl
    exact absurd rfl h
  · exact h

theorem unifyEndings_plain {line : Line} (h : '\r' ∉ line) (text : List Char) :
    unifyEndings (line ++ text) = line ++ unifyEndings text := by
  induction line with
  | nil => rfl
  | cons c line ih =>
      have hc : c ≠ '\r' := fun e => h (e ▸ List.mem_cons_self)
      rw [List.cons_append, unifyEndings_cons hc, ih (fun hmem => h (List.mem_cons_of_mem c hmem))]
      rfl

theorem unifyEndings_eq_self {line : Line} (h : '\r' ∉ line) : unifyEndings line = line := by
  have hline := unifyEndings_plain h []
  rwa [List.append_nil, unifyEndings, List.append_nil] at hline

theorem unifyEndings_ending (ending : Ending) {text : List Char}
    (h : ending = .loneReturn → text.head? ≠ some '\n') :
    unifyEndings (ending.chars ++ text) = '\n' :: unifyEndings text := by
  cases ending with
  | newline => exact unifyEndings_cons (by decide) text
  | returnNewline => rfl
  | loneReturn =>
      show unifyEndings ('\r' :: text) = _
      rw [unifyEndings]
      rintro rest rfl
      exact h rfl rfl

theorem unifyEndings_return (text : List Char) :
    unifyEndings ('\r' :: text) =
      if text.head? = some '\n' then unifyEndings text else '\n' :: unifyEndings text := by
  split
  · rename_i hnewline
    obtain ⟨rest, rfl⟩ := List.head?_eq_some_iff.1 hnewline
    have hrest : unifyEndings ('\n' :: rest) = '\n' :: unifyEndings rest :=
      unifyEndings_cons (by decide) rest
    rw [hrest]
    rfl
  · rename_i hother
    exact unifyEndings_ending .loneReturn (fun _ => hother)

/-- Endings on both sides are made uniform apart, if none is cut in two. -/
theorem unifyEndings_append {back : List Char} (hback : back.head? ≠ some '\n')
    (front : List Char) :
    unifyEndings (front ++ back) = unifyEndings front ++ unifyEndings back := by
  induction front with
  | nil => rfl
  | cons c front ih =>
      rw [List.cons_append]
      by_cases hc : c = '\r'
      · have hhead : (front ++ back).head? = some '\n' ↔ front.head? = some '\n' := by
          cases front with
          | nil => simpa using hback
          | cons d front => simp
        rw [hc, unifyEndings_return, unifyEndings_return]
        simp only [hhead, ih]
        split
        · rfl
        · rfl
      · rw [unifyEndings_cons hc, unifyEndings_cons hc, ih, List.cons_append]

theorem cons_of_unifyEndings {text rest : List Char} {c : Char}
    (h : unifyEndings text = c :: rest) (hc : c ≠ '\n') :
    ∃ more, text = c :: more ∧ rest = unifyEndings more := by
  cases text with
  | nil => cases h
  | cons d more =>
      by_cases hd : d = '\r'
      · rw [hd, unifyEndings_return] at h
        split at h
        · rename_i hnewline
          obtain ⟨others, rfl⟩ := List.head?_eq_some_iff.1 hnewline
          have hrest : unifyEndings ('\n' :: others) = '\n' :: unifyEndings others :=
            unifyEndings_cons (by decide) others
          rw [hrest] at h
          exact absurd (List.cons.inj h).1.symm hc
        · exact absurd (List.cons.inj h).1.symm hc
      · rw [unifyEndings_cons hd] at h
        obtain ⟨rfl, rfl⟩ := List.cons.inj h
        exact ⟨more, rfl, rfl⟩

theorem return_not_mem_unifyEndings (text : List Char) : '\r' ∉ unifyEndings text := by
  fun_induction unifyEndings text with
  | case1 => exact List.not_mem_nil
  | case2 rest ih => exact List.not_mem_cons_of_ne_of_not_mem (by decide) ih
  | case3 rest _ ih => exact List.not_mem_cons_of_ne_of_not_mem (by decide) ih
  | case4 c rest _ hc ih => exact List.not_mem_cons_of_ne_of_not_mem (Ne.symm hc) ih

theorem unifyEndings_unifyEndings (text : List Char) :
    unifyEndings (unifyEndings text) = unifyEndings text :=
  unifyEndings_eq_self (return_not_mem_unifyEndings text)

/-! ## Reading lines back -/

theorem splitLines_append {line : Line} (h : '\n' ∉ line) (text : List Char) :
    splitLines (line ++ text) = (splitLines text).modifyHead (line ++ ·) := by
  induction line with
  | nil => exact (congrFun List.modifyHead_id _).symm
  | cons c line ih =>
      have hc : c ≠ '\n' := fun e => h (e ▸ List.mem_cons_self)
      obtain ⟨first, rest, hlines⟩ := List.exists_cons_of_ne_nil (splitLines_ne_nil text)
      rw [List.cons_append, splitLines_cons hc, ih (fun hmem => h (List.mem_cons_of_mem c hmem)),
        hlines]
      rfl

theorem Written.lines_eq {lines : List Line} {text : List Char} (h : Written lines text) :
    splitLines (unifyEndings text) = lines := by
  induction h with
  | last hline => rw [unifyEndings_eq_self hline.1, splitLines_plain hline.2]
  | @ended line lines text ending hline _ hbehind ih =>
      rw [unifyEndings_plain hline.1, unifyEndings_ending ending hbehind,
        splitLines_plain_newline hline.2, ih]

theorem Written.cons {c : Char} (hreturn : c ≠ '\r') (hnewline : c ≠ '\n') {lines : List Line}
    {text : List Char} (h : Written lines text) : Written (consFirst c lines) (c :: text) := by
  cases h with
  | last hline => exact .last (hline.cons hreturn hnewline)
  | ended ending hline hlines hbehind =>
      exact .ended ending (hline.cons hreturn hnewline) hlines hbehind

theorem written_splitLines (text : List Char) : Written (splitLines (unifyEndings text)) text := by
  fun_induction unifyEndings text with
  | case1 => exact .last isPlain_nil
  | case2 rest ih => exact .ended .returnNewline isPlain_nil ih nofun
  | case3 rest hrest ih =>
      refine .ended .loneReturn isPlain_nil ih (fun _ hhead => ?_)
      obtain ⟨tail, rfl⟩ := List.head?_eq_some_iff.1 hhead
      exact hrest tail rfl
  | case4 c rest _ hreturn ih =>
      by_cases hnewline : c = '\n'
      · rw [hnewline]
        exact .ended .newline isPlain_nil ih nofun
      · rw [splitLines_cons hnewline]
        exact ih.cons hreturn hnewline

theorem written_iff {lines : List Line} {text : List Char} :
    Written lines text ↔ splitLines (unifyEndings text) = lines :=
  ⟨Written.lines_eq, fun h => h ▸ written_splitLines text⟩

/-- Lines written down with newlines between them. -/
def sourceOf (lines : List Line) : String := String.ofList (['\n'].intercalate lines)

theorem written_intercalate {lines : List Line} (hne : lines ≠ [])
    (h : ∀ line ∈ lines, IsPlain line) : Written lines (['\n'].intercalate lines) := by
  induction lines with
  | nil => exact absurd rfl hne
  | cons line rest ih =>
      obtain ⟨hline, hrest⟩ := List.forall_mem_cons.1 h
      cases rest with
      | nil =>
          rw [List.intercalate_singleton]
          exact .last hline
      | cons next more =>
          rw [List.intercalate_cons_cons, List.append_assoc]
          exact .ended .newline hline (ih (List.cons_ne_nil next more) hrest) nofun

theorem linesOf_sourceOf {lines : List Line} (hne : lines ≠ [])
    (h : ∀ line ∈ lines, IsPlain line) : linesOf (sourceOf lines) = lines := by
  rw [linesOf, sourceOf, String.toList_ofList]
  exact (written_intercalate hne h).lines_eq

theorem splitLines_injective {text other : List Char} (h : splitLines text = splitLines other) :
    text = other := by
  rw [splitLines, splitLines, splitAt_eq_splitOn, splitAt_eq_splitOn] at h
  have hjoined := congrArg (List.intercalate ['\n']) h
  rwa [List.intercalate_splitOn, List.intercalate_splitOn] at hjoined

theorem Written.unifyEndings_eq {lines : List Line} {text other : List Char}
    (h : Written lines text) (hother : Written lines other) :
    unifyEndings text = unifyEndings other :=
  splitLines_injective (h.lines_eq.trans hother.lines_eq.symm)

/-! ## Two replacements -/

/-- Replace each occurrence of a piece, found from the left; `skip` characters still belong to the
occurrence found last. -/
def replaceFrom (piece new : List Char) (skip : Nat) : List Char → List Char
  | [] => []
  | c :: text =>
    if skip > 0 then replaceFrom piece new (skip - 1) text
    else if piece.isPrefixOf (c :: text) then new ++ replaceFrom piece new (piece.length - 1) text
    else c :: replaceFrom piece new 0 text

/-- Replace each occurrence of a non-empty piece. -/
def replace (piece new text : List Char) : List Char := replaceFrom piece new 0 text

theorem replaceFrom_skip (piece new front text : List Char) :
    replaceFrom piece new front.length (front ++ text) = replace piece new text := by
  induction front with
  | nil => rfl
  | cons c front ih =>
      rw [List.length_cons, List.cons_append, replaceFrom, if_pos (Nat.succ_pos _),
        Nat.add_sub_cancel, ih]

theorem replace_found (c : Char) (piece new text : List Char) :
    replace (c :: piece) new (c :: piece ++ text) = new ++ replace (c :: piece) new text := by
  have hfound : (c :: piece).isPrefixOf (c :: (piece ++ text)) = true :=
    List.isPrefixOf_iff_prefix.2 (List.prefix_append (c :: piece) text)
  rw [replace, List.cons_append, replaceFrom, if_neg (Nat.lt_irrefl 0), if_pos hfound,
    List.length_cons, Nat.add_sub_cancel, replaceFrom_skip]

theorem replace_kept {c : Char} {piece text : List Char} (h : ¬ piece <+: c :: text)
    (new : List Char) : replace piece new (c :: text) = c :: replace piece new text := by
  rw [replace, replaceFrom, if_neg (Nat.lt_irrefl 0),
    if_neg (fun hfound => h (List.isPrefixOf_iff_prefix.1 hfound))]
  rfl

/-- **One pass does what two replacements do**: first of both characters together, then of the
returns that are left. -/
theorem unifyEndings_eq_replace (text : List Char) :
    unifyEndings text = replace ['\r'] ['\n'] (replace ['\r', '\n'] ['\n'] text) := by
  have hkept : ∀ {c : Char} {rest : List Char}, c ≠ '\r' → ¬ ['\r'] <+: c :: rest :=
    fun hc hprefix => hc (List.cons_prefix_cons.1 hprefix).1.symm
  fun_induction unifyEndings text with
  | case1 => rfl
  | case2 rest ih =>
      have hpair := replace_found '\r' ['\n'] ['\n'] rest
      simp only [List.cons_append, List.nil_append] at hpair
      rw [hpair, replace_kept (hkept (by decide)), ih]
  | case3 rest hrest ih =>
      have hlone : ¬ ['\r', '\n'] <+: '\r' :: rest := by
        rintro ⟨tail, htail⟩
        exact hrest tail (List.cons.inj htail).2.symm
      rw [replace_kept hlone, ih]
      exact (replace_found '\r' [] ['\n'] _).symm
  | case4 c rest _ hc ih =>
      have hother : ¬ ['\r', '\n'] <+: c :: rest :=
        fun hprefix => hc (List.cons_prefix_cons.1 hprefix).1.symm
      rw [replace_kept hother, replace_kept (hkept hc), ih]

end CodeSurvey.Text

namespace CodeSurvey

open Text

theorem analyze_eq_of_unifyEndings {source other : String}
    (h : unifyEndings source.toList = unifyEndings other.toList) (language : Language) :
    analyze language source = analyze language other := by
  cases language with
  | python => simp only [analyze, Python.analyze, linesOf, h]
  | javaScript => simp only [analyze, JavaScript.analyze, linesOf, h]
  | html => simp only [analyze, Html.analyze, h]
  | css => simp only [analyze, Css.analyze, Css.analyzeWith, h]
  | ruby | php | go => simp only [analyze, Overview.analyze, linesOf, h]

/-- **Line endings do not matter.**  Whatever endings lines are written with, they are the lines
that are read, and the findings and their summary are the same; and making endings uniform leaves
no carriage return and changes nothing a second time. -/
theorem line_endings_do_not_matter :
    (∀ lines text, Written lines text ↔ splitLines (unifyEndings text) = lines) ∧
    (∀ (lines : List Line) (source other : String),
      Written lines source.toList → Written lines other.toList →
        ∀ language, analyze language source = analyze language other ∧
          summarize (analyze language source) = summarize (analyze language other)) ∧
    (∀ text, unifyEndings text = replace ['\r'] ['\n'] (replace ['\r', '\n'] ['\n'] text)) ∧
    ∀ text, unifyEndings (unifyEndings text) = unifyEndings text ∧ '\r' ∉ unifyEndings text := by
  refine ⟨fun _ _ => written_iff, ?_, unifyEndings_eq_replace, fun text => ?_⟩
  · intro lines source other hsource hother language
    have hsame := analyze_eq_of_unifyEndings (hsource.unifyEndings_eq hother) language
    exact ⟨hsame, congrArg summarize hsame⟩
  · exact ⟨unifyEndings_unifyEndings text, return_not_mem_unifyEndings text⟩

/-- Three lines, the middle one empty: a lone return in front of an ending of two characters, and
plain newlines. -/
theorem mixed_endings_read_alike :
    Written [['a'], [], ['b']] "a\r\r\nb".toList ∧ Written [['a'], [], ['b']] "a\n\nb".toList ∧
      ∀ language, analyze language "a\r\r\nb" = analyze language "a\n\nb" ∧
        summarize (analyze language "a\r\r\nb") = summarize (analyze language "a\n\nb") := by
  have hplain : IsPlain ['a'] ∧ IsPlain ['b'] := by decide
  have hmixed : Written [['a'], [], ['b']] "a\r\r\nb".toList :=
    .ended .loneReturn hplain.1 (.ended .returnNewline isPlain_nil (.last hplain.2) nofun)
      (by decide)
  have hnewlines : Written [['a'], [], ['b']] "a\n\nb".toList :=
    .ended .newline hplain.1 (.ended .newline isPlain_nil (.last hplain.2) nofun) nofun
  exact ⟨hmixed, hnewlines, line_endings_do_not_matter.2.1 _ _ _ hmixed hnewlines⟩

end CodeSurvey
