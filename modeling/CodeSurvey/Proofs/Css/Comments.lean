/-
# Comments are inert

Blanking overwrites the comments of a text (`blankComments_joined`).  What it leaves has no comment:
an opener or a closer in it would be made of two characters that were kept and stood side by side
before, for at least four blanks are where a comment was (`fitTogether_overwritten`).  So blanking
is idempotent.

Line endings are made uniform before comments are looked for.  That moves no comment, since no
ending is cut in two by the edge of one (`exists_parts_unifyEndings`); so a source may have its
comments overwritten with blanks beforehand, if the characters that end lines are kept.
-/
import CodeSurvey.Proofs.Css.Located
import CodeSurvey.Proofs.Css.Parts
import CodeSurvey.Proofs.Pattern.Repetition
import CodeSurvey.Proofs.Pattern.Searching
import CodeSurvey.Proofs.Text.Endings

namespace CodeSurvey.Css

open Text Pattern

/-! ## Blanking overwrites the comments -/

theorem requires_commentPattern :
    Requires (fun place => beginsComment place.rest = true) commentPattern := by
  intro here out hout
  obtain ⟨bodyEnd, hbodyEnd, hcloser⟩ := mem_runs_append.1 hout
  obtain ⟨bodyStart, hopener, hfew⟩ := mem_runs_append.1 hbodyEnd
  obtain ⟨body, hbody, -⟩ := takes_of_mem_runs (over_true _) hfew
  rw [beginsComment_iff, rest_of_mem_literal hopener, hbody.rest, rest_of_mem_literal hcloser]
  exact ⟨_, rfl, body, out.1.rest, List.append_assoc body closer out.1.rest⟩

theorem matchAt?_comment {body : List Char} (hfirst : ¬closer <:+: body ++ ['*'])
    (front rest : List Char) :
    ∃ m, commentPattern.matchAt? (Place.between front ((Part.comment body).text ++ rest)) = some m ∧
      m.stop = front.length + (Part.comment body).text.length := by
  have hopener := first_literal "/*" front (body ++ (closer ++ rest)) []
  have hcloser := first_literal "*/" (front ++ "/*".toList ++ body) rest []
  have hnear : ∀ less more, body = less ++ more → more ≠ [] →
      (literal "*/").runs
        (Place.between (front ++ "/*".toList ++ less) (more ++ (closer ++ rest)), []) = [] := by
    intro less more hbody hne
    rw [List.eq_nil_iff_forall_not_mem]
    intro out hout
    have hrest : more ++ (closer ++ rest) = closer ++ out.1.rest := rest_of_mem_literal hout
    have hstart := closer_isPrefix_of_overlap hne ⟨out.1.rest, hrest.symm⟩
    refine hfirst (hstart.isInfix.trans ⟨less, [], ?_⟩)
    rw [hbody, List.append_nil, List.append_assoc]
  have hbody := first_few_append (p := fun _ => true) (fun _ _ => rfl) hcloser hnear
  have hfirstRun : First commentPattern
      (Place.between front ((Part.comment body).text ++ rest), [])
      (Place.between (front ++ (Part.comment body).text) rest, []) := by
    have hboth := First.append hopener hbody
    rw [First, ← runs_append_assoc] at hboth
    have htext : "/*".toList ++ (body ++ (closer ++ rest)) = (Part.comment body).text ++ rest := by
      simp [Part.text]
    have hstop : front ++ "/*".toList ++ body ++ "*/".toList =
        front ++ (Part.comment body).text := by
      simp [Part.text]
    rwa [htext, hstop] at hboth
  exact ⟨_, hfirstRun.matchAt?_eq, List.length_append⟩

theorem blankMatches_skip (found : List Match) (taken rest : List Char) (offset : Nat) :
    blankMatches taken.length offset found (taken ++ rest) =
      taken.map blanked ++ blankMatches 0 (offset + taken.length) found rest := by
  induction taken generalizing offset with
  | nil => rfl
  | cons c taken ih =>
      rw [List.length_cons, List.cons_append, blankMatches.eq_def]
      dsimp only
      rw [if_pos (Nat.succ_pos _), Nat.add_sub_cancel, ih, List.map_cons, List.cons_append,
        Nat.add_assoc, Nat.add_comm 1]

theorem blankMatches_match {m : Match} {c : Char} {taken : List Char}
    (hstop : m.stop = m.start + (taken.length + 1)) (later : List Match) (rest : List Char) :
    blankMatches 0 m.start (m :: later) (c :: (taken ++ rest)) =
      (c :: taken).map blanked ++ blankMatches 0 m.stop later rest := by
  have hskip : m.stop - m.start - 1 = taken.length := by omega
  rw [blankMatches, if_neg (Nat.lt_irrefl 0), if_pos rfl, hskip, blankMatches_skip, hstop,
    List.map_cons, List.cons_append, Nat.add_assoc, Nat.add_comm 1]

theorem blankMatches_kept {found : List Match} {offset : Nat}
    (hfound : ∀ m ∈ found, offset < m.start) (c : Char) (rest : List Char) :
    blankMatches 0 offset found (c :: rest) = c :: blankMatches 0 (offset + 1) found rest := by
  cases found with
  | nil => rw [blankMatches, if_neg (Nat.lt_irrefl 0)]
  | cons m later =>
      have hne : m.start ≠ offset := Nat.ne_of_gt (hfound m List.mem_cons_self)
      rw [blankMatches, if_neg (Nat.lt_irrefl 0), if_neg hne]

theorem blankMatches_joined {parts : List Part} (h : FitTogether parts) (front : List Char) :
    blankMatches 0 front.length (commentPattern.findBehind front (joined parts)) (joined parts) =
      overwritten blanked parts := by
  induction parts generalizing front with
  | nil => rfl
  | cons part parts ih =>
      obtain ⟨hpart, hparts⟩ := h
      rw [joined_cons, overwritten_cons]
      cases part with
      | plain c =>
          have hnone : commentPattern.matchAt? (Place.between front (c :: joined parts)) = none :=
            matchAt?_eq_none_of_requires requires_commentPattern
              (fun hbegins => Bool.false_ne_true (hpart.symm.trans hbegins))
          have hlater : ∀ m ∈ commentPattern.findBehind (front ++ [c]) (joined parts),
              front.length < m.start := by
            intro m hm
            have hle := le_start_of_mem_findAllFrom hm
            rw [List.length_append] at hle
            exact hle
          have hrest := ih hparts (front ++ [c])
          rw [List.length_append] at hrest
          rw [Part.text, List.singleton_append, findBehind_cons hnone, blankMatches_kept hlater]
          exact congrArg (c :: ·) hrest
      | comment body =>
          obtain ⟨m, hm, hstop⟩ :=
            matchAt?_comment (Part.fits_comment_iff.1 hpart) front (joined parts)
          have hstart : m.start = front.length := start_of_matchAt? hm
          have hmatch : commentPattern.findBehind front ((Part.comment body).text ++ joined parts) =
              m :: commentPattern.findBehind (front ++ (Part.comment body).text) (joined parts) :=
            findBehind_match hm hstop
          have hlength : m.stop = m.start + (('*' :: (body ++ closer)).length + 1) := by
            rw [hstart]
            exact hstop
          have hblank := blankMatches_match (c := '/') hlength
            (commentPattern.findBehind (front ++ (Part.comment body).text) (joined parts))
            (joined parts)
          have hrest := ih hparts (front ++ (Part.comment body).text)
          rw [List.length_append, ← hstop] at hrest
          rw [hrest, hstart] at hblank
          rw [hmatch]
          exact hblank

/-- **Blanking overwrites the comments** and keeps the rest. -/
theorem blankComments_joined {parts : List Part} (h : FitTogether parts) :
    blankComments (joined parts) = overwritten blanked parts :=
  blankMatches_joined h []

/-! ## Nothing new comes together -/

section Kept

variable {f : Char → Char} {parts : List Part}

/-- A character that overwriting does not make was kept. -/
theorem cons_of_overwritten {c : Char} {more : List Char} (hc : ∀ d, f d ≠ c)
    (h : overwritten f parts = c :: more) :
    ∃ others, parts = .plain c :: others ∧ more = overwritten f others := by
  cases parts with
  | nil => cases h
  | cons part others =>
      rw [overwritten_cons] at h
      cases part with
      | plain d =>
          obtain ⟨rfl, hmore⟩ := List.cons.inj h
          exact ⟨others, rfl, hmore.symm⟩
      | comment body => exact absurd (List.cons.inj h).1 (hc '/')

theorem closer_isInfix_of_append {front back : List Char} (hfront : '*' ∉ front)
    (h : closer <:+: front ++ back) : closer <:+: back := by
  induction front with
  | nil => exact h
  | cons c front ih =>
      rw [List.cons_append, List.infix_cons_iff] at h
      rcases h with ⟨rest, hrest⟩ | h
      · exact absurd (List.cons.inj hrest).1 (List.ne_of_not_mem_cons hfront)
      · exact ih (List.not_mem_of_not_mem_cons hfront) h

theorem not_mem_overwrite_comment {c : Char} (hc : ∀ d, f d ≠ c) (body : List Char) :
    c ∉ (Part.comment body).overwrite f := by
  intro hmem
  obtain ⟨d, -, hd⟩ := List.mem_map.1 hmem
  exact hc d hd

theorem closer_isInfix_joined (hstar : ∀ d, f d ≠ '*') (hslash : ∀ d, f d ≠ '/')
    (h : closer <:+: overwritten f parts) : closer <:+: joined parts := by
  induction parts with
  | nil => exact h
  | cons part parts ih =>
      rw [overwritten_cons] at h
      rw [joined_cons]
      cases part with
      | plain c =>
          rcases List.infix_cons_iff.1 h with ⟨rest, hrest⟩ | hinfix
          · obtain ⟨rfl, hslashNext⟩ := List.cons.inj hrest
            obtain ⟨others, rfl, -⟩ := cons_of_overwritten hslash hslashNext.symm
            exact ⟨[], joined others, rfl⟩
          · exact List.infix_cons (ih hinfix)
      | comment body =>
          have hbehind := closer_isInfix_of_append (not_mem_overwrite_comment hstar body) h
          exact (ih hbehind).trans (List.suffix_append _ _).isInfix

theorem joined_map_plain (text : List Char) : joined (text.map .plain) = text := by
  induction text with
  | nil => rfl
  | cons c text ih =>
      rw [List.map_cons, joined_cons, ih]
      rfl

theorem overwritten_map_plain (f : Char → Char) (text : List Char) :
    overwritten f (text.map .plain) = text := by
  induction text with
  | nil => rfl
  | cons c text ih =>
      rw [List.map_cons, overwritten_cons, ih]
      rfl

theorem fitTogether_plain_append {front back : List Char} (hfront : '/' ∉ front)
    (hback : FitTogether (back.map .plain)) : FitTogether ((front ++ back).map .plain) := by
  induction front with
  | nil => exact hback
  | cons c front ih =>
      refine ⟨beginsComment_eq_false_iff.2 ?_, ih (List.not_mem_of_not_mem_cons hfront)⟩
      rintro ⟨more, htext, -⟩
      exact List.ne_of_not_mem_cons hfront (List.cons.inj htext).1.symm

/-- **What is left has no comment**: all its characters stand for themselves. -/
theorem fitTogether_overwritten (hstar : ∀ d, f d ≠ '*') (hslash : ∀ d, f d ≠ '/')
    (h : FitTogether parts) : FitTogether ((overwritten f parts).map .plain) := by
  induction parts with
  | nil => exact h
  | cons part parts ih =>
      obtain ⟨hpart, hparts⟩ := h
      rw [overwritten_cons]
      cases part with
      | plain c =>
          show FitTogether (.plain c :: (overwritten f parts).map .plain)
          refine ⟨?_, ih hparts⟩
          rw [Part.Fits, joined_map_plain, beginsComment_eq_false_iff]
          rintro ⟨more, htext, hcloser⟩
          obtain ⟨rfl, hnext⟩ := List.cons.inj htext
          obtain ⟨others, rfl, rfl⟩ := cons_of_overwritten hstar hnext
          -- the opener was there before, and so was the closer
          have hbegins := beginsComment_iff.2
            ⟨joined others, rfl, closer_isInfix_joined hstar hslash hcloser⟩
          exact Bool.false_ne_true (hpart.symm.trans hbegins)
      | comment body =>
          exact fitTogether_plain_append (not_mem_overwrite_comment hslash body) (ih hparts)

theorem not_isInfix_of_fitTogether {text : List Char} (h : FitTogether (text.map .plain))
    (body : List Char) : ¬(Part.comment body).text <:+: text := by
  induction text with
  | nil => exact fun hinfix => List.cons_ne_nil _ _ (List.infix_nil.1 hinfix)
  | cons c text ih =>
      obtain ⟨hc, hothers⟩ := h
      rw [List.infix_cons_iff]
      rintro (⟨rest, hrest⟩ | hinfix)
      · have hplain : beginsComment (c :: joined (text.map .plain)) = false := hc
        rw [joined_map_plain, ← hrest] at hplain
        have hbegins := beginsComment_comment body rest
        exact Bool.false_ne_true (hplain.symm.trans hbegins)
      · exact ih hothers hinfix

end Kept

theorem blanked_ne {c : Char} (hspace : c ≠ ' ') (hnewline : c ≠ '\n') (d : Char) :
    blanked d ≠ c := by
  unfold blanked
  split
  · exact hnewline.symm
  · exact hspace.symm

theorem fitTogether_blanked {parts : List Part} (h : FitTogether parts) :
    FitTogether ((overwritten blanked parts).map .plain) := by
  have hstar := blanked_ne (c := '*') (by decide) (by decide)
  have hslash := blanked_ne (c := '/') (by decide) (by decide)
  exact fitTogether_overwritten hstar hslash h

/-- Blanking changes nothing a second time. -/
theorem blankComments_blankComments (text : List Char) :
    blankComments (blankComments text) = blankComments text := by
  obtain ⟨parts, hparts, rfl⟩ := exists_parts text
  have hleft := blankComments_joined (fitTogether_blanked hparts)
  rw [joined_map_plain, overwritten_map_plain] at hleft
  rw [blankComments_joined hparts, hleft]

/-! ## Comments in a source -/

/-- A character of a comment, made a blank unless it ends a line. -/
def spaced (c : Char) : Char := if c = '\n' ∨ c = '\r' then c else ' '

/-- Uniform endings or blanks, it does not matter which come first. -/
theorem unifyEndings_map_spaced (text : List Char) :
    unifyEndings (text.map spaced) = (unifyEndings text).map blanked := by
  induction text with
  | nil => rfl
  | cons c text ih =>
      by_cases hc : c = '\r'
      · have hhead : (text.map spaced).head? = some '\n' ↔ text.head? = some '\n' := by
          have hspaced : ∀ d, spaced d = '\n' ↔ d = '\n' := by
            intro d
            unfold spaced
            split
            · rfl
            · rename_i hd
              exact iff_of_false (by decide) (fun h => hd (.inl h))
          rw [List.head?_map, Option.map_eq_some_iff]
          simp only [hspaced, exists_eq_right]
        have hreturn : spaced '\r' = '\r' := rfl
        rw [hc, List.map_cons, hreturn, unifyEndings_return, unifyEndings_return]
        simp only [hhead, ih]
        split
        · rfl
        · rfl
      · have hsame : spaced c = blanked c := by
          unfold spaced blanked
          simp only [hc, or_false]
          split
          · assumption
          · rfl
        have hne : blanked c ≠ '\r' := blanked_ne (by decide) (by decide) c
        rw [List.map_cons, hsame, unifyEndings_cons hne, unifyEndings_cons hc, ih, List.map_cons]

theorem unifyEndings_between {opening closing : List Char} (hopening : '\r' ∉ opening)
    (hclosing : '\r' ∉ closing) (hedge : ∀ rest, (closing ++ rest).head? ≠ some '\n')
    (body rest : List Char) :
    unifyEndings (opening ++ (body ++ (closing ++ rest))) =
      opening ++ (unifyEndings body ++ (closing ++ unifyEndings rest)) := by
  rw [unifyEndings_plain hopening, unifyEndings_append (hedge rest), unifyEndings_plain hclosing]

theorem unifyEndings_comment (body rest : List Char) :
    unifyEndings ((Part.comment body).text ++ rest) =
      (Part.comment (unifyEndings body)).text ++ unifyEndings rest := by
  have htext : ∀ body rest, (Part.comment body).text ++ rest =
      ['/', '*'] ++ (body ++ (closer ++ rest)) := by
    simp [Part.text]
  rw [htext, unifyEndings_between (by decide) (by decide) (by simp), htext]

theorem unifyEndings_overwrite_comment (body rest : List Char) :
    unifyEndings ((Part.comment body).overwrite spaced ++ rest) =
      (Part.comment (unifyEndings body)).overwrite blanked ++ unifyEndings rest := by
  have hspaced : ∀ rest, (Part.comment body).overwrite spaced ++ rest =
      [' ', ' '] ++ (body.map spaced ++ ([' ', ' '] ++ rest)) := by
    simp [Part.overwrite, Part.text, spaced]
  have hblanked : ∀ body rest, (Part.comment body).overwrite blanked ++ rest =
      [' ', ' '] ++ (body.map blanked ++ ([' ', ' '] ++ rest)) := by
    simp [Part.overwrite, Part.text, blanked]
  rw [hspaced, unifyEndings_between (by decide) (by decide) (by simp), unifyEndings_map_spaced,
    hblanked]

theorem closer_isInfix_of_unifyEndings {text : List Char}
    (h : closer <:+: unifyEndings text) : closer <:+: text := by
  induction text with
  | nil => exact h
  | cons c text ih =>
      by_cases hc : c = '\r'
      · rw [hc, unifyEndings_return] at h
        split at h
        · exact List.infix_cons (ih h)
        · rcases List.infix_cons_iff.1 h with ⟨rest, hrest⟩ | hinfix
          · exact absurd (List.cons.inj hrest).1 (by decide)
          · exact List.infix_cons (ih hinfix)
      · rw [unifyEndings_cons hc] at h
        rcases List.infix_cons_iff.1 h with ⟨rest, hrest⟩ | hinfix
        · obtain ⟨rfl, hslash⟩ := List.cons.inj hrest
          obtain ⟨more, rfl, -⟩ := cons_of_unifyEndings hslash.symm (by decide)
          exact ⟨[], more, rfl⟩
        · exact List.infix_cons (ih hinfix)

theorem beginsComment_of_unifyEndings {text : List Char}
    (h : beginsComment (unifyEndings text) = true) : beginsComment text = true := by
  obtain ⟨more, htext, hcloser⟩ := beginsComment_iff.1 h
  obtain ⟨behind, rfl, hbehind⟩ := cons_of_unifyEndings htext (by decide)
  obtain ⟨rest, rfl, rfl⟩ := cons_of_unifyEndings hbehind.symm (by decide)
  exact beginsComment_iff.2 ⟨rest, rfl, closer_isInfix_of_unifyEndings hcloser⟩

theorem spaced_beq_newline (c : Char) : (spaced c == '\n') = (c == '\n') := by
  unfold spaced
  split
  · rfl
  · rename_i hc
    rw [beq_eq_false_iff_ne.2 (fun h => hc (.inl h))]
    rfl

/-- **The comments of a source are those of the text with uniform endings**, overwritten or not. -/
theorem exists_parts_unifyEndings {parts : List Part} (h : FitTogether parts) :
    ∃ others, FitTogether others ∧ joined others = unifyEndings (joined parts) ∧
      overwritten blanked others = unifyEndings (overwritten spaced parts) := by
  induction parts with
  | nil => exact ⟨[], trivial, rfl, rfl⟩
  | cons part parts ih =>
      obtain ⟨hpart, hparts⟩ := h
      obtain ⟨others, hothers, hjoined, hover⟩ := ih hparts
      rw [joined_cons, overwritten_cons]
      cases part with
      | comment body =>
          refine ⟨.comment (unifyEndings body) :: others,
            ⟨Part.fits_comment_iff.2 (fun hcloser => ?_), hothers⟩, ?_, ?_⟩
          · have hstar : unifyEndings ['*'] = ['*'] := unifyEndings_eq_self (by decide)
            have hbody : unifyEndings (body ++ ['*']) = unifyEndings body ++ unifyEndings ['*'] :=
              unifyEndings_append (by decide) body
            rw [hstar] at hbody
            rw [← hbody] at hcloser
            exact Part.fits_comment_iff.1 hpart (closer_isInfix_of_unifyEndings hcloser)
          · rw [joined_cons, hjoined, unifyEndings_comment]
          · rw [overwritten_cons, hover, unifyEndings_overwrite_comment]
      | plain c =>
          have hnewline := getElem?_overwritten_newline spaced_beq_newline parts 0
          rw [← List.head?_eq_getElem?, ← List.head?_eq_getElem?] at hnewline
          show ∃ others, FitTogether others ∧ joined others = unifyEndings (c :: joined parts) ∧
            overwritten blanked others = unifyEndings (c :: overwritten spaced parts)
          by_cases hc : c = '\r'
          · rw [hc, unifyEndings_return, unifyEndings_return]
            simp only [hnewline]
            split
            · exact ⟨others, hothers, hjoined, hover⟩
            · exact ⟨.plain '\n' :: others, ⟨rfl, hothers⟩, congrArg ('\n' :: ·) hjoined,
                congrArg ('\n' :: ·) hover⟩
          · rw [unifyEndings_cons hc, unifyEndings_cons hc]
            refine ⟨.plain c :: others, ⟨?_, hothers⟩, congrArg (c :: ·) hjoined,
              congrArg (c :: ·) hover⟩
            rw [Part.Fits, hjoined, ← unifyEndings_cons hc, ← Bool.not_eq_true]
            intro hbegins
            have hbefore := beginsComment_of_unifyEndings hbegins
            exact Bool.false_ne_true (hpart.symm.trans hbefore)

/-! ## Comments are inert -/

/-- A text with the comments of parts blanked. -/
structure Blanked (parts : List Part) (text : List Char) : Prop where
  length_eq : text.length = (joined parts).length
  newline_iff : ∀ i : Nat, text[i]? = some '\n' ↔ (joined parts)[i]? = some '\n'
  outside : ∀ i : Nat, ¬InComment parts i → text[i]? = (joined parts)[i]?
  inside : ∀ i : Nat, InComment parts i → text[i]? = some ' ' ∨ text[i]? = some '\n'
  noComment : ∀ body, ¬(Part.comment body).text <:+: text

theorem inComment_lt {parts : List Part} {i : Nat} (h : InComment parts i) :
    i < (joined parts).length := by
  obtain ⟨front, body, back, rfl, -, hlt⟩ := h
  rw [joined, List.flatMap_append, List.length_append, List.flatMap_cons, List.length_append]
  rw [joined] at hlt
  omega

theorem blanked_overwritten {parts : List Part} (h : FitTogether parts) :
    Blanked parts (overwritten blanked parts) := by
  constructor
  case length_eq => exact length_overwritten blanked parts
  case newline_iff => exact getElem?_overwritten_newline blanked_eq_newline parts
  case outside => exact fun i => (getElem?_overwritten blanked parts i).2
  case inside =>
    intro i hi
    rw [(getElem?_overwritten blanked parts i).1 hi, List.getElem?_eq_getElem (inComment_lt hi),
      Option.map_some, blanked]
    split
    · exact .inr rfl
    · exact .inl rfl
  case noComment => exact not_isInfix_of_fitTogether (fitTogether_blanked h)

theorem analyzeWith_overwritten {parts : List Part} (h : FitTogether parts)
    (html : Option String) :
    analyzeWith (String.ofList (overwritten spaced parts)) html =
      analyzeWith (String.ofList (joined parts)) html := by
  obtain ⟨others, hothers, hjoined, hover⟩ := exists_parts_unifyEndings h
  have hsame : blankComments (unifyEndings (overwritten spaced parts)) =
      blankComments (unifyEndings (joined parts)) := by
    rw [← hjoined, ← hover, ← blankComments_joined hothers, blankComments_blankComments]
  rw [analyzeWith, analyzeWith, String.toList_ofList, String.toList_ofList, hsame]

/-- **Comments are inert.**  Every text is cut into closed comments and single characters in one way.
Blanking keeps the length, every newline at its place and every character outside comments, leaves
no closed comment, and changes nothing a second time; and the findings of a source are the same if
each closed comment is overwritten with blanks beforehand, line endings kept. -/
theorem comments_are_inert :
    (∀ text, ∃! parts, FitTogether parts ∧ joined parts = text) ∧
    ∀ parts, FitTogether parts →
      Blanked parts (blankComments (joined parts)) ∧
      blankComments (blankComments (joined parts)) = blankComments (joined parts) ∧
      ∀ html, analyzeWith (String.ofList (overwritten spaced parts)) html =
        analyzeWith (String.ofList (joined parts)) html := by
  refine ⟨fun text => ?_, fun parts hparts => ⟨?_, blankComments_blankComments _,
    analyzeWith_overwritten hparts⟩⟩
  · obtain ⟨parts, hparts, rfl⟩ := exists_parts text
    refine ⟨parts, ⟨hparts, rfl⟩, ?_⟩
    rintro others ⟨hothers, hjoined⟩
    exact parts_unique hothers hparts hjoined
  · rw [blankComments_joined hparts]
    exact blanked_overwritten hparts

/-- A slash in front of a comment with a brace and a line ending in it, and a closer that is left
over. -/
def braceInComment : List Part :=
  [.plain '/', .comment "\r\n/*\x7b".toList] ++ "*/a\x7b\x7d".toList.map .plain

theorem braceInComment_inert :
    FitTogether braceInComment ∧
    analyzeWith "/  \r\n     */a\x7b\x7d" none = analyzeWith "//*\r\n/*\x7b*/*/a\x7b\x7d" none := by
  have hfit : FitTogether braceInComment := by decide
  exact ⟨hfit, (comments_are_inert.2 braceInComment hfit).2.2 none⟩

end CodeSurvey.Css
