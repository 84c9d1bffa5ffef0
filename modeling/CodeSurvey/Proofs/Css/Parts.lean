/-
# A text cut at its comments

A text is cut, in one way, into closed comments and single characters (`exists_parts`,
`parts_unique`).  A comment begins with an opener that a closer follows, and ends with the first
closer behind the opener.  When the comments are overwritten character by character, all else stays
where it is (`getElem?_overwritten`).
-/
import CodeSurvey.Proofs.Text.Pieces
import CodeSurvey.Scan.Css

namespace CodeSurvey.Css

open Text

/-! ## Parts of a text -/

/-- What ends a comment. -/
abbrev closer : List Char := ['*', '/']

def beginsComment : List Char → Bool
  | '/' :: '*' :: more => occursIn closer more
  | _ => false

/-- A part of a text: one character, or a closed comment around a body. -/
inductive Part where
  | plain (c : Char)
  | comment (body : List Char)
deriving DecidableEq, Repr

namespace Part

def text : Part → List Char
  | plain c => [c]
  | comment body => '/' :: '*' :: (body ++ closer)

/-- Whether a part is read as such in front of a rest: no comment begins with a character by itself,
and a comment ends with the first closer behind its opener. -/
def Fits (rest : List Char) : Part → Prop
  | plain c => beginsComment (c :: rest) = false
  | comment body => occursIn closer (body ++ ['*']) = false

/-- The text of a part, a comment overwritten character by character. -/
def overwrite (f : Char → Char) : Part → List Char
  | plain c => [c]
  | comment body => (comment body).text.map f

end Part

/-- The text of parts. -/
def joined (parts : List Part) : List Char := parts.flatMap Part.text

def overwritten (f : Char → Char) (parts : List Part) : List Char :=
  parts.flatMap (Part.overwrite f)

/-- Whether parts are read as such, one behind the other. -/
def FitTogether : List Part → Prop
  | [] => True
  | part :: parts => part.Fits (joined parts) ∧ FitTogether parts

def InComment (parts : List Part) (i : Nat) : Prop :=
  ∃ front body back, parts = front ++ .comment body :: back ∧ (joined front).length ≤ i ∧
    i < (joined front).length + (Part.comment body).text.length

instance (rest : List Char) : DecidablePred (Part.Fits rest)
  | .plain c => inferInstanceAs (Decidable (beginsComment (c :: rest) = false))
  | .comment body => inferInstanceAs (Decidable (occursIn closer (body ++ ['*']) = false))

instance decidableFitTogether : DecidablePred FitTogether
  | [] => .isTrue trivial
  | part :: parts =>
    have := decidableFitTogether parts
    inferInstanceAs (Decidable (part.Fits (joined parts) ∧ FitTogether parts))

theorem joined_cons (part : Part) (parts : List Part) :
    joined (part :: parts) = part.text ++ joined parts :=
  List.flatMap_cons

theorem overwritten_cons (f : Char → Char) (part : Part) (parts : List Part) :
    overwritten f (part :: parts) = part.overwrite f ++ overwritten f parts :=
  List.flatMap_cons

/-! ## Where a comment begins and ends -/

theorem beginsComment_iff {text : List Char} :
    beginsComment text = true ↔ ∃ more, text = '/' :: '*' :: more ∧ closer <:+: more := by
  constructor
  · intro h
    unfold beginsComment at h
    split at h
    · rename_i more
      exact ⟨more, rfl, occursIn_iff_isInfix.1 h⟩
    · cases h
  · rintro ⟨more, rfl, hcloser⟩
    exact occursIn_iff_isInfix.2 hcloser

theorem beginsComment_eq_false_iff {text : List Char} :
    beginsComment text = false ↔ ¬∃ more, text = '/' :: '*' :: more ∧ closer <:+: more := by
  rw [← beginsComment_iff, Bool.not_eq_true]

theorem Part.fits_comment_iff {rest body : List Char} :
    (Part.comment body).Fits rest ↔ ¬closer <:+: body ++ ['*'] := by
  rw [← occursIn_iff_isInfix, Bool.not_eq_true]
  rfl

/-- A closer that begins earlier than another ends no later than the asterisk of that. -/
theorem closer_isPrefix_of_overlap {more back : List Char} (hne : more ≠ [])
    (h : closer <+: more ++ (closer ++ back)) : closer <+: more ++ ['*'] := by
  have hasterisk : more ++ ['*'] <+: more ++ (closer ++ back) :=
    (List.prefix_append_right_inj more).2 ⟨'/' :: back, rfl⟩
  refine List.prefix_of_prefix_length_le h hasterisk ?_
  have hpos := List.length_pos_iff.2 hne
  simp only [List.length_cons, List.length_nil, List.length_append]
  omega

theorem exists_first_closer {text : List Char} (h : closer <:+: text) :
    ∃ body back, text = body ++ (closer ++ back) ∧ ¬closer <:+: body ++ ['*'] := by
  induction text with
  | nil => exact absurd (List.infix_nil.1 h) (List.cons_ne_nil _ _)
  | cons c text ih =>
      by_cases hhere : closer <+: c :: text
      · obtain ⟨back, hback⟩ := hhere
        refine ⟨[], back, hback.symm, ?_⟩
        intro hinfix
        have hlength := hinfix.length_le
        simp at hlength
      · obtain ⟨body, back, rfl, hfirst⟩ := ih ((List.infix_cons_iff.1 h).resolve_left hhere)
        refine ⟨c :: body, back, rfl, ?_⟩
        rw [List.cons_append, List.infix_cons_iff]
        rintro (hstart | hinfix)
        · exact hhere (hstart.trans ⟨'/' :: back, by simp⟩)
        · exact hfirst hinfix

theorem body_eq_of_first {body other back rest : List Char} (hbody : ¬closer <:+: body ++ ['*'])
    (hother : ¬closer <:+: other ++ ['*']) (h : body ++ (closer ++ back) = other ++ (closer ++ rest)) :
    body = other := by
  have hshorter : ∀ {front more behind beyond : List Char}, ¬closer <:+: (front ++ more) ++ ['*'] →
      closer ++ beyond = more ++ (closer ++ behind) → more = [] := by
    intro front more behind beyond hfirst heq
    by_contra hne
    have hstart := closer_isPrefix_of_overlap hne ⟨beyond, heq⟩
    rw [List.append_assoc] at hfirst
    exact hfirst (hstart.isInfix.trans (List.suffix_append front _).isInfix)
  rcases List.append_eq_append_iff.1 h with ⟨more, rfl, hrest⟩ | ⟨more, rfl, hrest⟩
  · rw [hshorter hother hrest, List.append_nil]
  · rw [hshorter hbody hrest, List.append_nil]

/-! ## Cutting a text -/

theorem exists_parts (text : List Char) : ∃ parts, FitTogether parts ∧ joined parts = text := by
  match text with
  | [] => exact ⟨[], trivial, rfl⟩
  | c :: rest =>
      by_cases hcomment : beginsComment (c :: rest) = true
      · obtain ⟨more, htext, hcloser⟩ := beginsComment_iff.1 hcomment
        obtain ⟨body, back, rfl, hfirst⟩ := exists_first_closer hcloser
        have hshorter : back.length < (c :: rest).length := by
          rw [htext]
          simp only [List.length_cons, List.length_append]
          omega
        obtain ⟨parts, hfit, hjoined⟩ := exists_parts back
        refine ⟨.comment body :: parts, ⟨Part.fits_comment_iff.2 hfirst, hfit⟩, ?_⟩
        rw [joined_cons, hjoined, htext, Part.text]
        simp only [List.cons_append, List.append_assoc]
      · obtain ⟨parts, hfit, hjoined⟩ := exists_parts rest
        refine ⟨.plain c :: parts, ⟨?_, hfit⟩, ?_⟩
        · rw [Part.Fits, hjoined]
          exact Bool.not_eq_true _ ▸ hcomment
        · rw [joined_cons, hjoined]
          rfl
termination_by text.length
decreasing_by
  · exact hshorter
  · exact Nat.lt_succ_self rest.length

theorem beginsComment_comment (body rest : List Char) :
    beginsComment ((Part.comment body).text ++ rest) = true :=
  beginsComment_iff.2 ⟨body ++ closer ++ rest, rfl, body, rest, rfl⟩

theorem joined_ne_nil (part : Part) (parts : List Part) : joined (part :: parts) ≠ [] := by
  rw [joined_cons]
  cases part with
  | plain c => exact List.cons_ne_nil _ _
  | comment body => exact List.cons_ne_nil _ _

/-- No text can be cut in two ways. -/
theorem parts_unique {parts others : List Part} (hparts : FitTogether parts)
    (hothers : FitTogether others) (h : joined parts = joined others) : parts = others := by
  induction parts generalizing others with
  | nil =>
      cases others with
      | nil => rfl
      | cons other others => exact absurd h.symm (joined_ne_nil other others)
  | cons part parts ih =>
      cases others with
      | nil => exact absurd h (joined_ne_nil part parts)
      | cons other others =>
          obtain ⟨hpart, hparts⟩ := hparts
          obtain ⟨hother, hothers⟩ := hothers
          cases part with
          | plain c =>
              cases other with
              | plain d =>
                  obtain ⟨rfl, hrest⟩ := List.cons.inj h
                  rw [ih hparts hothers hrest]
              | comment body =>
                  have hbegins := beginsComment_comment body (joined others)
                  rw [← joined_cons, ← h] at hbegins
                  exact absurd (hpart.symm.trans hbegins) Bool.false_ne_true
          | comment body =>
              cases other with
              | plain d =>
                  have hbegins := beginsComment_comment body (joined parts)
                  rw [← joined_cons, h] at hbegins
                  exact absurd (hother.symm.trans hbegins) Bool.false_ne_true
              | comment otherBody =>
                  rw [joined_cons, joined_cons, Part.text, Part.text] at h
                  simp only [List.cons_append, List.append_assoc, List.cons.injEq, true_and] at h
                  obtain rfl := body_eq_of_first (Part.fits_comment_iff.1 hpart)
                    (Part.fits_comment_iff.1 hother) h
                  have hrest : closer ++ joined parts = closer ++ joined others :=
                    List.append_cancel_left h
                  rw [ih hparts hothers (List.append_cancel_left hrest)]

/-! ## What stays where it is -/

section Overwritten

variable {f : Char → Char} {parts : List Part} {i : Nat}

/-- What overwriting keeps of a character it keeps of a text. -/
theorem map_overwritten {α : Type} {g : Char → α} (hg : ∀ c, g (f c) = g c) (parts : List Part) :
    (overwritten f parts).map g = (joined parts).map g := by
  have hboth : g ∘ f = g := funext hg
  induction parts with
  | nil => rfl
  | cons part parts ih =>
      rw [overwritten_cons, joined_cons, List.map_append, List.map_append, ih]
      cases part with
      | plain c => rfl
      | comment body => rw [Part.overwrite, List.map_map, hboth]

theorem length_overwritten (f : Char → Char) (parts : List Part) :
    (overwritten f parts).length = (joined parts).length := by
  have hmap := map_overwritten (f := f) (g := fun _ => ()) (fun _ => rfl) parts
  simpa only [List.length_map] using congrArg List.length hmap

theorem length_overwrite (f : Char → Char) (part : Part) :
    (part.overwrite f).length = part.text.length := by
  cases part with
  | plain c => rfl
  | comment body => exact List.length_map _

theorem inComment_cons_iff {part : Part} :
    InComment (part :: parts) i ↔
      ((∃ body, part = .comment body) ∧ i < part.text.length) ∨
        part.text.length ≤ i ∧ InComment parts (i - part.text.length) := by
  constructor
  · rintro ⟨front, body, back, hparts, hle, hlt⟩
    cases front with
    | nil =>
        obtain ⟨rfl, -⟩ := List.cons.inj hparts
        rw [joined, List.flatMap_nil, List.length_nil, Nat.zero_add] at hlt
        exact .inl ⟨⟨body, rfl⟩, hlt⟩
    | cons first front =>
        obtain ⟨rfl, hrest⟩ := List.cons.inj hparts
        rw [joined_cons, List.length_append] at hle hlt
        exact .inr ⟨by omega, front, body, back, hrest, by omega, by omega⟩
  · rintro (⟨⟨body, rfl⟩, hlt⟩ | ⟨hle, front, body, back, rfl, hstart, hstop⟩)
    · exact ⟨[], body, parts, rfl, Nat.zero_le i, by rwa [joined, List.flatMap_nil,
        List.length_nil, Nat.zero_add]⟩
    · refine ⟨part :: front, body, back, rfl, ?_, ?_⟩
      · rw [joined_cons, List.length_append]
        omega
      · rw [joined_cons, List.length_append]
        omega

theorem getElem?_overwritten (f : Char → Char) (parts : List Part) (i : Nat) :
    (InComment parts i → (overwritten f parts)[i]? = (joined parts)[i]?.map f) ∧
      (¬InComment parts i → (overwritten f parts)[i]? = (joined parts)[i]?) := by
  induction parts generalizing i with
  | nil => exact ⟨fun _ => rfl, fun _ => rfl⟩
  | cons part parts ih =>
      rw [inComment_cons_iff, overwritten_cons, joined_cons]
      by_cases hi : i < part.text.length
      · have hi' : i < (part.overwrite f).length := by rwa [length_overwrite]
        rw [List.getElem?_append_left hi, List.getElem?_append_left hi']
        cases part with
        | plain c =>
            refine ⟨?_, fun _ => rfl⟩
            rintro (⟨⟨body, hbody⟩, -⟩ | ⟨hle, -⟩)
            · cases hbody
            · exact absurd hi (Nat.not_lt.2 hle)
        | comment body =>
            refine ⟨fun _ => List.getElem?_map, fun hnot => ?_⟩
            exact absurd (.inl ⟨⟨body, rfl⟩, hi⟩) hnot
      · have hle := Nat.not_lt.1 hi
        have hle' : (part.overwrite f).length ≤ i := by rwa [length_overwrite]
        rw [List.getElem?_append_right hle, List.getElem?_append_right hle', length_overwrite]
        simp only [hi, and_false, false_or, hle, true_and]
        exact ih (i - part.text.length)

/-- Newlines stay at their places, if overwriting neither makes one nor takes one away. -/
theorem getElem?_overwritten_newline (hf : ∀ c, (f c == '\n') = (c == '\n')) (parts : List Part)
    (i : Nat) : (overwritten f parts)[i]? = some '\n' ↔ (joined parts)[i]? = some '\n' := by
  have hmap := congrArg (·[i]?) (map_overwritten (g := (· == '\n')) hf parts)
  simp only [List.getElem?_map] at hmap
  have hnewline : ∀ c? : Option Char, c? = some '\n' ↔ c?.map (· == '\n') = some true := by
    intro c?
    simp
  rw [hnewline, hnewline, hmap]

end Overwritten

end CodeSurvey.Css
