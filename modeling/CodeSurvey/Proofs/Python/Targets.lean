/-
# Targets of a line

The targets of a line are collected in passes that only add to what is there
(`prefix_assignments`).  The first passes look for an annotation and for a tuple at the front of
the line; both need a colon or a comma behind nothing but names and blanks.
-/
import CodeSurvey.Proofs.Pattern.Runs
import CodeSurvey.Proofs.Pattern.Spans
import CodeSurvey.Proofs.Text.Words
import CodeSurvey.Scan.PythonBindings

namespace CodeSurvey.Python

open Text Pattern

/-! ## Brackets -/

theorem bracketDelta_cons (c : Char) (code : List Char) :
    bracketDelta (c :: code) = bracketStep c + bracketDelta code := by
  have hfrom : ∀ n, code.foldl (fun depth c => depth + bracketStep c) n = n + bracketDelta code := by
    unfold bracketDelta
    induction code with
    | nil => intro n; simp
    | cons d code ih =>
        intro n
        rw [List.foldl_cons, List.foldl_cons, ih, ih (0 + bracketStep d)]
        omega
  rw [bracketDelta, List.foldl_cons, hfrom]
  omega

theorem bracketDelta_append (front back : List Char) :
    bracketDelta (front ++ back) = bracketDelta front + bracketDelta back := by
  induction front with
  | nil => simp [bracketDelta]
  | cons c front ih =>
      rw [List.cons_append, bracketDelta_cons, bracketDelta_cons, ih]
      omega

theorem bracketDelta_of_blank {text : List Char} (h : ∀ c ∈ text, isBlank c = true) :
    bracketDelta text = 0 := by
  induction text with
  | nil => rfl
  | cons c text ih =>
      obtain ⟨hc, hothers⟩ := List.forall_mem_cons.1 h
      have hstep : bracketStep c = 0 := by
        have hall : ∀ n ∈ blankCodes, bracketStep (Char.ofNat n) = 0 := by decide
        have hcode := hall c.toNat (mem_blankCodes hc)
        rwa [Char.ofNat_toNat] at hcode
      rw [bracketDelta_cons, hstep, ih hothers]
      rfl

/-! ## Annotations and tuples -/

def isNameText (c : Char) : Bool := isBlank c || isWordChar c

/-- Nothing but names and blanks stands between a place and a character. -/
def LeadsTo (c : Char) (place : Place) : Prop :=
  ∃ taken rest, place.rest = taken ++ c :: rest ∧ ∀ d ∈ taken, isNameText d = true

theorem find?_behind {taken rest : List Char} {c : Char}
    (htaken : ∀ d ∈ taken, isNameText d = true) (hc : isNameText c = false) :
    (taken ++ c :: rest).find? (fun d => !isNameText d) = some c := by
  have hnone : taken.find? (fun d => !isNameText d) = none :=
    List.find?_eq_none.2 (fun d hd => by simp [htaken d hd])
  rw [List.find?_append, hnone, List.find?_cons_of_pos (by simp [hc])]
  rfl

/-- A place leads to no character but those up to the first that is not of names and blanks. -/
theorem LeadsTo.mem_or_eq {c d : Char} {place : Place} {front rest : List Char}
    (h : LeadsTo c place) (hplace : place.rest = front ++ d :: rest) (hc : isNameText c = false)
    (hd : isNameText d = false) : c ∈ front ∨ c = d := by
  obtain ⟨taken, back, hrest, htaken⟩ := h
  have hfound : (front ++ d :: rest).find? (fun e => !isNameText e) = some c := by
    rw [← hplace, hrest]
    exact find?_behind htaken hc
  rw [List.find?_append] at hfound
  cases hfront : front.find? (fun e => !isNameText e) with
  | some e =>
      rw [hfront] at hfound
      rw [← Option.some.inj hfound]
      exact Or.inl (List.mem_of_find?_eq_some hfront)
  | none =>
      rw [hfront, List.find?_cons_of_pos (by rw [hd]; rfl)] at hfound
      exact Or.inr (Option.some.inj hfound).symm

theorem over_blanks : blanks.Over (isNameText · = true) :=
  fun c (hc : isBlank c = true) => by simp [isNameText, hc]

theorem over_identifier_isNameText : identifier.Over (isNameText · = true) :=
  ⟨fun c hc => by simp [isNameText, isWordChar_of_isNameStart hc],
    fun c hc => by simp [isNameText, hc]⟩

theorem requires_leadsTo_append {a b : Pattern} {c : Char} (ha : a.Over (isNameText · = true))
    (hb : Requires (LeadsTo c) b) : Requires (LeadsTo c) (a ++ b) := by
  intro here out hout
  obtain ⟨mid, hmid, hout⟩ := mem_runs_append.1 hout
  obtain ⟨front, htakes, hfront⟩ := takes_of_mem_runs ha hmid
  obtain ⟨taken, rest, hrest, htaken⟩ := hb mid out hout
  refine ⟨front ++ taken, rest, ?_, List.forall_mem_append.2 ⟨hfront, htaken⟩⟩
  rw [htakes.rest, hrest, List.append_assoc]

theorem requires_leadsTo_char (c : Char) : Requires (LeadsTo c) (char c) := by
  intro here out hout
  obtain ⟨d, hrest, hd⟩ := rest_of_mem_one hout
  rw [beq_iff_eq.1 hd] at hrest
  exact ⟨[], out.1.rest, hrest, fun _ h => absurd h List.not_mem_nil⟩

theorem anchored_annotatedPattern : Anchored annotatedPattern := by
  unfold annotatedPattern
  iterate 6 refine Requires.append ?_ _
  exact anchored_textStart

theorem requires_annotatedPattern : Requires (LeadsTo ':') annotatedPattern := by
  unfold annotatedPattern
  iterate 2 refine Requires.append ?_ _
  have hover : (textStart ++ blanks ++ group 1 identifier ++ blanks).Over (isNameText · = true) :=
    ⟨⟨⟨trivial, over_blanks⟩, over_identifier_isNameText⟩, over_blanks⟩
  exact requires_leadsTo_append hover (requires_leadsTo_char ':')

theorem anchored_tuplePattern : Anchored tuplePattern := by
  unfold tuplePattern
  iterate 4 refine Requires.append ?_ _
  exact anchored_textStart

/-- A further name of a tuple is behind a comma. -/
theorem requires_follower :
    Requires (LeadsTo ',') (blanks ++ char ',' ++ blanks ++ identifier) := by
  iterate 2 refine Requires.append ?_ _
  exact requires_leadsTo_append over_blanks (requires_leadsTo_char ',')

theorem requires_tuplePattern : Requires (LeadsTo ',') tuplePattern := by
  unfold tuplePattern
  iterate 2 refine Requires.append ?_ _
  have htargets : Requires (LeadsTo ',')
      (identifier ++ rounds1 (blanks ++ char ',' ++ blanks ++ identifier)) :=
    requires_leadsTo_append over_identifier_isNameText (requires_follower.append _)
  have hstart : (textStart ++ blanks).Over (isNameText · = true) := ⟨trivial, over_blanks⟩
  refine requires_leadsTo_append hstart ?_
  intro here out hout
  obtain ⟨inner, hinner, -⟩ := mem_runs_group.1 hout
  exact htargets here inner hinner

/-! ## Targets are only added -/

theorem prefix_foldl {β : Type} {f : List Assignment → β → List Assignment}
    (h : ∀ found b, found <+: f found b) (found : List Assignment) (bs : List β) :
    found <+: bs.foldl f found := by
  induction bs generalizing found with
  | nil => exact List.prefix_refl found
  | cons b bs ih => exact (h found b).trans (ih _)

theorem prefix_addTarget (found : List Assignment) (name : List Char) (start : Nat)
    (kind : AssignKind) : found <+: addTarget found name start kind := by
  unfold addTarget
  split
  · exact List.prefix_refl found
  · exact List.prefix_append found _

theorem prefix_addNames (found : List Assignment) (span : Span) :
    found <+: addNames found span := by
  unfold addNames
  exact prefix_foldl (fun found (m : Match) => prefix_addTarget ..) found _

theorem prefix_addAssignment (code : List Char) (depth scanFrom : Nat) (found : List Assignment)
    (m : Match) : found <+: addAssignment code depth scanFrom found m := by
  unfold addAssignment
  repeat' split
  · exact List.prefix_refl found
  · exact List.prefix_refl found
  · exact prefix_addTarget ..

theorem prefix_addGroupNames (found : List Assignment) (m : Match) :
    found <+: addGroupNames found m := by
  unfold addGroupNames
  split
  · exact List.prefix_refl found
  · exact prefix_addNames ..

theorem prefix_addGroupName (found : List Assignment) (m : Match) :
    found <+: addGroupName found m := by
  unfold addGroupName
  split
  · exact List.prefix_refl found
  · exact prefix_addTarget ..

theorem prefix_addLambda (found : List Assignment) (m : Match) : found <+: addLambda found m := by
  unfold addLambda
  split
  · exact List.prefix_refl found
  · rename_i span _
    refine prefix_foldl (fun found m => ?_) found _
    unfold addParameter
    split
    · exact List.prefix_refl found
    · exact prefix_addTarget ..

theorem prefix_assignments {code : List Char} {depth scanFrom : Nat} {found : List Assignment}
    {first : Match} {more : List Match} (hline : addLineTargets code depth = (found, scanFrom))
    (hmatches : assignmentPattern.findAll code = first :: more) :
    addAssignment code depth scanFrom found first <+: assignments code depth := by
  unfold assignments
  rw [hline, hmatches]
  exact (prefix_foldl (prefix_addAssignment code depth scanFrom) _ more).trans
    ((prefix_foldl prefix_addGroupNames _ _).trans
      ((prefix_foldl prefix_addGroupName _ _).trans (prefix_foldl prefix_addLambda _ _)))

end CodeSurvey.Python
