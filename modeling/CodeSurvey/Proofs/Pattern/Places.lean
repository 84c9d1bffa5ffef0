/-
# Places of a text

A run only moves on through the text, so a place that it comes to is told by the front of the text
that lies behind it: how far in, and what the last character was (`in_of_mem_runs`).  So what a
match says of its neighbours can be read off the text.  Where no match begins within another, a
search finds every place that matches (`mem_findAll_iff`).
-/
import CodeSurvey.Proofs.Pattern.First
import CodeSurvey.Proofs.Pattern.Spans

namespace CodeSurvey

theorem lastOf_eq_getLast? (text : List Char) : lastOf none text = text.getLast? := by
  have hbefore : ∀ before, lastOf before text = text.getLast?.or before := by
    induction text with
    | nil => exact fun _ => rfl
    | cons c rest ih =>
        intro before
        show lastOf (some c) rest = _
        rw [ih, List.getLast?_cons]
        cases rest.getLast? <;> rfl
  rw [hbefore, Option.or_none]

theorem lastOf_append (before : Option Char) (front back : List Char) :
    lastOf before (front ++ back) = lastOf (lastOf before front) back :=
  List.foldl_append

/-- The place of a text that has this front behind it and this rest before it. -/
def Place.between (front rest : List Char) : Place := ⟨front.length, lastOf none front, rest⟩

theorem Place.past_between (front taken rest : List Char) :
    (Place.between front (taken ++ rest)).past taken rest =
      Place.between (front ++ taken) rest := by
  simp only [Place.past, Place.between, lastOf_append, List.length_append]

theorem Span.text_between (front taken rest : List Char) :
    (⟨Place.between front (taken ++ rest), Place.between (front ++ taken) rest⟩ : Span).text =
      taken := by
  refine Span.text_eq ⟨rfl, ?_⟩
  simp only [Place.between, List.length_append]

def Place.In (text : List Char) (place : Place) : Prop :=
  ∃ front, text = front ++ place.rest ∧ place = Place.between front place.rest

theorem Place.in_between (front rest : List Char) :
    (Place.between front rest).In (front ++ rest) :=
  ⟨front, rfl, rfl⟩

theorem Place.In.step {text rest : List Char} {place : Place} {c : Char} (h : place.In text)
    (hrest : place.rest = c :: rest) : Place.In text ⟨place.offset + 1, some c, rest⟩ := by
  obtain ⟨front, htext, hplace⟩ := h
  refine ⟨front ++ [c], by rw [htext, hrest, List.append_assoc]; rfl, ?_⟩
  rw [hplace]
  simp only [Place.between, lastOf_append, List.length_append]
  rfl

theorem Place.In.eq_between {text front rest : List Char} {place : Place} (h : place.In text)
    (htext : text = front ++ rest) (hoffset : place.offset = front.length) :
    place = Place.between front rest := by
  obtain ⟨front', htext', hplace⟩ := h
  rw [hplace] at hoffset
  have hboth := List.append_inj (htext'.symm.trans htext) hoffset
  rw [hplace, hboth.1, hboth.2]

namespace Pattern

/-! ## Runs stay in the text -/

theorem in_of_mem_runEnds {p : Char → Bool} {text rest : List Char} {here there : Place}
    {passed : List Place} (hrest : here.rest = rest) (hhere : here.In text)
    (hpassed : ∀ place ∈ passed, place.In text) (h : there ∈ runEnds p rest here passed) :
    there.In text := by
  induction rest generalizing here passed with
  | nil => exact hpassed there h
  | cons c rest ih =>
      rw [runEnds] at h
      split at h
      · have hnext := hhere.step hrest
        exact ih rfl hnext (List.forall_mem_cons.2 ⟨hnext, hpassed⟩) h
      · exact hpassed there h

theorem in_of_mem_runsOf {p : Char → Bool} {text : List Char} {here there : Place}
    (hhere : here.In text) (h : there ∈ runsOf p here) : there.In text :=
  in_of_mem_runEnds rfl hhere (List.forall_mem_singleton.2 hhere) h

/-- **A run from a place of a text ends at a place of it.** -/
theorem in_of_mem_runs {text : List Char} {pattern : Pattern} {here out : Place × Groups}
    (h : out ∈ pattern.runs here) (hhere : here.1.In text) : out.1.In text := by
  induction pattern generalizing here out with
  | empty =>
      rw [List.mem_singleton.1 h]
      exact hhere
  | one p =>
      obtain ⟨place, hplace, rfl⟩ := List.mem_map.1 h
      have hstep := Option.mem_toList.1 hplace
      unfold Place.step? at hstep
      split at hstep
      · rename_i c rest hrest
        split at hstep
        · rw [← Option.some.inj hstep]
          exact hhere.step hrest
        · cases hstep
      · cases hstep
  | many p =>
      obtain ⟨place, hplace, rfl⟩ := List.mem_map.1 h
      exact in_of_mem_runsOf hhere hplace
  | few p =>
      obtain ⟨place, hplace, rfl⟩ := List.mem_map.1 h
      exact in_of_mem_runsOf hhere (List.mem_reverse.1 hplace)
  | seq a b iha ihb =>
      obtain ⟨mid, hmid, hout⟩ := List.mem_flatMap.1 h
      exact ihb hout (iha hmid hhere)
  | either a b iha ihb =>
      rcases List.mem_append.1 h with h | h
      · exact iha h hhere
      · exact ihb h hhere
  | rounds a ih =>
      have hrounds : ∀ fuel here, ∀ out ∈ roundsOf a.runs fuel here,
          here.1.In text → out.1.In text :=
        roundsOf_induction (fun _ hhere => hhere)
          (fun _ _ _ hmid hout hhere => hout (hmid hhere)) (fun _ _ hout => ih hout)
      exact hrounds _ here out h hhere
  | group n a ih =>
      obtain ⟨inner, hinner, rfl⟩ := mem_runs_group.1 h
      have hstays := ih hinner hhere
      exact hstays
  | wordEdge | textStart | textEnd =>
      rw [runs] at h
      split at h
      · rw [List.mem_singleton.1 h]
        exact hhere
      · cases h

theorem between_of_mem_runs {P : Char → Prop} {pattern : Pattern} (hP : pattern.Over P)
    {front rest : List Char} {groups : Groups} {out : Place × Groups}
    (h : out ∈ pattern.runs (Place.between front rest, groups)) :
    ∃ taken back, rest = taken ++ back ∧ out.1 = Place.between (front ++ taken) back ∧
      ∀ c ∈ taken, P c := by
  obtain ⟨taken, htakes, htaken⟩ := takes_of_mem_runs hP h
  have hrest : rest = taken ++ out.1.rest := htakes.rest
  have hin := in_of_mem_runs h (Place.in_between front rest)
  refine ⟨taken, out.1.rest, hrest, hin.eq_between ?_ ?_, htaken⟩
  · rw [List.append_assoc, ← hrest]
  · rw [htakes.offset, List.length_append]
    rfl

/-- What begins with one character of a class takes one. -/
theorem exists_cons_of_mem_runs {p : Char → Bool} {k : Pattern} {front taken back : List Char}
    {groups : Groups} {out : Place × Groups}
    (h : out ∈ (one p ++ k).runs (Place.between front (taken ++ back), groups))
    (hout : out.1 = Place.between (front ++ taken) back) :
    ∃ c more, taken = c :: more ∧ p c = true := by
  obtain ⟨mid, hmid, hk⟩ := mem_runs_append.1 h
  obtain ⟨c, hfirst, hc⟩ := rest_of_mem_one hmid
  obtain ⟨more, hmore, -⟩ := takes_of_mem_runs (over_true k) hk
  have hback : out.1.rest = back := by
    rw [hout]
    rfl
  have htaken : taken ++ back = (c :: more) ++ back := by
    rw [List.cons_append, ← hback, ← hmore.rest, hback]
    exact hfirst
  exact ⟨c, more, List.append_cancel_right htaken, hc⟩

theorem between_of_mem_blanks1 {front rest : List Char} {groups : Groups} {out : Place × Groups}
    (h : out ∈ blanks1.runs (Place.between front rest, groups)) :
    ∃ gap back, rest = gap ++ back ∧ gap ≠ [] ∧ (∀ c ∈ gap, Text.isBlank c = true) ∧
      out.1 = Place.between (front ++ gap) back := by
  have hover : blanks1.Over (Text.isBlank · = true) := ⟨fun _ hc => hc, fun _ hc => hc⟩
  obtain ⟨gap, back, rfl, hout, hgap⟩ := between_of_mem_runs hover h
  obtain ⟨c, more, rfl, -⟩ := exists_cons_of_mem_runs h hout
  exact ⟨c :: more, back, rfl, List.cons_ne_nil c more, hgap, hout⟩

theorem between_of_mem_literal {word : String} {front rest : List Char} {groups : Groups}
    {out : Place × Groups} (h : out ∈ (literal word).runs (Place.between front rest, groups)) :
    ∃ back, rest = word.toList ++ back ∧ out.1 = Place.between (front ++ word.toList) back := by
  obtain ⟨taken, back, hrest, hplace, -⟩ := between_of_mem_runs (over_true _) h
  have hword : rest = word.toList ++ out.1.rest := rest_of_mem_literal h
  have hback : out.1.rest = back := by rw [hplace]; rfl
  rw [hback, hrest] at hword
  obtain rfl := List.append_cancel_right hword
  exact ⟨back, hrest, hplace⟩

theorem atWordEdge_between (front rest : List Char) :
    (Place.between front rest).atWordEdge =
      (front.getLast?.any Text.isWordChar != rest.head?.any Text.isWordChar) := by
  rw [Place.atWordEdge, Place.between, lastOf_eq_getLast?]

/-! ## First runs in a text -/

theorem first_one {p : Char → Bool} {c : Char} (hc : p c = true) (front rest : List Char)
    (groups : Groups) :
    First (one p) (Place.between front (c :: rest), groups)
      (Place.between (front ++ [c]) rest, groups) := by
  rw [← Place.past_between front [c] rest]
  exact .one rfl hc

theorem first_char (c : Char) (front rest : List Char) (groups : Groups) :
    First (char c) (Place.between front (c :: rest), groups)
      (Place.between (front ++ [c]) rest, groups) :=
  first_one (beq_self_eq_true c) front rest groups

theorem first_many {p : Char → Bool} {taken rest : List Char}
    (htaken : ∀ c ∈ taken, p c = true) (hrest : rest.head?.any p = false) (front : List Char)
    (groups : Groups) :
    First (many p) (Place.between front (taken ++ rest), groups)
      (Place.between (front ++ taken) rest, groups) := by
  rw [← Place.past_between front taken rest]
  refine .many rfl htaken ?_
  intro c hc
  rw [hc] at hrest
  exact hrest

theorem first_some1 {p : Char → Bool} {taken rest : List Char} (htaken : ∀ c ∈ taken, p c = true)
    (hne : taken ≠ []) (hrest : rest.head?.any p = false) (front : List Char) (groups : Groups) :
    First (some1 p) (Place.between front (taken ++ rest), groups)
      (Place.between (front ++ taken) rest, groups) := by
  obtain ⟨c, others, rfl⟩ := List.exists_cons_of_ne_nil hne
  obtain ⟨hc, hothers⟩ := List.forall_mem_cons.1 htaken
  have hmany := first_many hothers hrest (front ++ [c]) groups
  rw [List.append_assoc] at hmany
  exact .append (first_one hc front (others ++ rest) groups) hmany

theorem first_literal (text : String) (front rest : List Char) (groups : Groups) :
    First (literal text) (Place.between front (text.toList ++ rest), groups)
      (Place.between (front ++ text.toList) rest, groups) := by
  unfold literal
  generalize text.toList = cs
  induction cs generalizing front with
  | nil =>
      rw [List.append_nil]
      exact rfl
  | cons c cs ih =>
      have hrest := ih (front ++ [c])
      rw [List.append_assoc] at hrest
      exact .append (first_char c front (cs ++ rest) groups) hrest

/-! ## Groups -/

/-- Whether a pattern remembers nothing. -/
def groupFree : Pattern → Bool
  | group _ _ => false
  | seq a b | either a b => a.groupFree && b.groupFree
  | rounds a => a.groupFree
  | empty | one _ | many _ | few _ | wordEdge | textStart | textEnd => true

theorem groups_of_groupFree {pattern : Pattern} (hfree : pattern.groupFree = true)
    {here out : Place × Groups} (h : out ∈ pattern.runs here) : out.2 = here.2 := by
  induction pattern generalizing here out with
  | empty => rw [List.mem_singleton.1 h]
  | one p | many p | few p =>
      obtain ⟨place, -, rfl⟩ := List.mem_map.1 h
      rfl
  | seq a b iha ihb =>
      obtain ⟨hafree, hbfree⟩ := Bool.and_eq_true_iff.1 hfree
      obtain ⟨mid, hmid, hout⟩ := List.mem_flatMap.1 h
      exact (ihb hbfree hout).trans (iha hafree hmid)
  | either a b iha ihb =>
      obtain ⟨hafree, hbfree⟩ := Bool.and_eq_true_iff.1 hfree
      rcases List.mem_append.1 h with h | h
      · exact iha hafree h
      · exact ihb hbfree h
  | rounds a ih =>
      have hrounds : ∀ fuel here, ∀ out ∈ roundsOf a.runs fuel here, out.2 = here.2 :=
        roundsOf_induction (fun _ => rfl) (fun _ _ _ hmid hout => hout.trans hmid)
          (fun _ _ hout => ih hfree hout)
      exact hrounds _ here out h
  | group n a ih => cases hfree
  | wordEdge | textStart | textEnd =>
      rw [runs] at h
      split at h
      · rw [List.mem_singleton.1 h]
      · cases h

theorem parts_of_matchAt? {pattern a b c : Pattern} {n : Nat}
    (hruns : ∀ here, pattern.runs here = (a ++ (group n b ++ c)).runs here)
    (ha : a.groupFree = true) (hb : b.groupFree = true) (hc : c.groupFree = true) {place : Place}
    {m : Match} (hm : pattern.matchAt? place = some m) :
    ∃ start stop groups, (start, []) ∈ a.runs (place, []) ∧ (stop, []) ∈ b.runs (start, []) ∧
      (m.span.stop, groups) ∈ c.runs (stop, groups) ∧ m.group? n = some ⟨start, stop⟩ := by
  obtain ⟨⟨last, groups⟩, hhead, rfl⟩ := Option.map_eq_some_iff.1 hm
  have hout := List.mem_of_head? hhead
  rw [hruns] at hout
  obtain ⟨⟨start, before⟩, hstart, hbehind⟩ := mem_runs_append.1 hout
  obtain ⟨mid, hmid, hrest⟩ := mem_runs_append.1 hbehind
  obtain ⟨⟨stop, inner⟩, hinner, rfl⟩ := mem_runs_group.1 hmid
  have hbefore : before = [] := groups_of_groupFree ha hstart
  have hwithin : inner = before := groups_of_groupFree hb hinner
  have hgroups : groups = (n, ⟨start, stop⟩) :: inner := groups_of_groupFree hc hrest
  subst hwithin hbefore hgroups
  refine ⟨start, stop, _, hstart, hinner, hrest, ?_⟩
  simp [Match.group?]

/-! ## Searching -/

theorem matchAt?_of_mem_findAllFrom {pattern : Pattern} {m : Match} {rest : List Char}
    {skip : Nat} {front : List Char}
    (h : m ∈ pattern.findAllFrom skip front.length (lastOf none front) rest) :
    ∃ more back, rest = more ++ back ∧ back ≠ [] ∧
      pattern.matchAt? (Place.between (front ++ more) back) = some m := by
  induction rest generalizing skip front with
  | nil => cases h
  | cons c rest ih =>
      have hnext : ∀ skip, m ∈ pattern.findAllFrom skip (front.length + 1) (some c) rest →
          ∃ more back, c :: rest = more ++ back ∧ back ≠ [] ∧
            pattern.matchAt? (Place.between (front ++ more) back) = some m := by
        intro skip hmem
        have hlast : lastOf none (front ++ [c]) = some c := lastOf_append none front [c]
        have hfrom : m ∈ pattern.findAllFrom skip (front ++ [c]).length
            (lastOf none (front ++ [c])) rest := by
          rw [hlast, List.length_append]
          exact hmem
        obtain ⟨more, back, hrest, hback, hm⟩ := ih hfrom
        refine ⟨c :: more, back, by rw [hrest]; rfl, hback, ?_⟩
        rw [List.append_assoc] at hm
        exact hm
      rw [findAllFrom] at h
      split at h
      · exact hnext _ h
      · split at h
        · rename_i found hfound
          rcases List.mem_cons.1 h with rfl | h
          · refine ⟨[], c :: rest, rfl, List.cons_ne_nil c rest, ?_⟩
            rw [List.append_nil]
            exact hfound
          · exact hnext _ h
        · exact hnext _ h

theorem matchAt?_of_mem_findAll {pattern : Pattern} {text : List Char} {m : Match}
    (h : m ∈ pattern.findAll text) :
    ∃ front back, text = front ++ back ∧ back ≠ [] ∧
      pattern.matchAt? (Place.between front back) = some m := by
  have hfrom : m ∈ pattern.findAllFrom 0 ([] : List Char).length (lastOf none []) text := h
  obtain ⟨more, back, htext, hback, hm⟩ := matchAt?_of_mem_findAllFrom hfrom
  exact ⟨more, back, htext, hback, hm⟩

theorem isSome_findFrom_iff {pattern : Pattern} (front rest : List Char) :
    (pattern.findFrom front.length (lastOf none front) rest).isSome = true ↔
      ∃ more back, rest = more ++ back ∧
        (pattern.matchAt? (Place.between (front ++ more) back)).isSome = true := by
  induction rest generalizing front with
  | nil =>
      rw [findFrom]
      constructor
      · exact fun h => ⟨[], [], rfl, by rw [List.append_nil]; exact h⟩
      · rintro ⟨more, back, hrest, h⟩
        obtain ⟨rfl, rfl⟩ := List.append_eq_nil_iff.1 hrest.symm
        rw [List.append_nil] at h
        exact h
  | cons c rest ih =>
      have hlast : lastOf none (front ++ [c]) = some c := lastOf_append none front [c]
      have hnext := ih (front ++ [c])
      rw [hlast, List.length_append] at hnext
      rw [findFrom]
      cases hm : pattern.matchAt? ⟨front.length, lastOf none front, c :: rest⟩ with
      | some m =>
          refine iff_of_true rfl ⟨[], c :: rest, rfl, ?_⟩
          rw [List.append_nil]
          exact Option.isSome_iff_exists.2 ⟨m, hm⟩
      | none =>
          refine hnext.trans ?_
          constructor
          · rintro ⟨more, back, rfl, h⟩
            refine ⟨c :: more, back, rfl, ?_⟩
            rw [List.append_assoc] at h
            exact h
          · rintro ⟨more, back, hrest, h⟩
            cases more with
            | nil =>
                rw [List.nil_append] at hrest
                subst hrest
                rw [List.append_nil] at h
                have hnone : pattern.matchAt? (Place.between front (c :: rest)) = none := hm
                rw [hnone] at h
                cases h
            | cons d more =>
                obtain ⟨rfl, rfl⟩ := List.cons.inj hrest
                refine ⟨more, back, rfl, ?_⟩
                rw [List.append_assoc]
                exact h

/-- **A pattern occurs in a text if it matches at a place of it.** -/
theorem occurs_iff {pattern : Pattern} {text : List Char} :
    pattern.occurs text = true ↔ ∃ front back, text = front ++ back ∧
      (pattern.matchAt? (Place.between front back)).isSome = true :=
  isSome_findFrom_iff [] text

/-- No match of the pattern begins within another. -/
def Apart (pattern : Pattern) : Prop :=
  ∀ front more back m, pattern.matchAt? (Place.between front (more ++ back)) = some m →
    more ≠ [] → front.length + more.length < m.stop →
      pattern.matchAt? (Place.between (front ++ more) back) = none

theorem mem_findAllFrom_of_apart {pattern : Pattern} (hapart : pattern.Apart) {m : Match}
    {more back : List Char} {skip : Nat} {front : List Char} (hback : back ≠ [])
    (hm : pattern.matchAt? (Place.between (front ++ more) back) = some m)
    (hskip : skip ≤ more.length) :
    m ∈ pattern.findAllFrom skip front.length (lastOf none front) (more ++ back) := by
  induction more generalizing skip front with
  | nil =>
      rw [List.append_nil] at hm
      rw [Nat.le_zero.1 hskip, List.nil_append]
      obtain ⟨c, rest, rfl⟩ := List.exists_cons_of_ne_nil hback
      obtain ⟨others, hfound⟩ := findAllFrom_of_matchAt? hm
      rw [hfound]
      exact List.mem_cons_self
  | cons c more ih =>
      have hlast : lastOf none (front ++ [c]) = some c := lastOf_append none front [c]
      have hnext : ∀ skip, skip ≤ more.length →
          m ∈ pattern.findAllFrom skip (front.length + 1) (some c) (more ++ back) := by
        intro skip hle
        have hthere : m ∈ pattern.findAllFrom skip (front ++ [c]).length
            (lastOf none (front ++ [c])) (more ++ back) :=
          ih (by rw [List.append_assoc]; exact hm) hle
        rw [hlast, List.length_append] at hthere
        exact hthere
      rw [List.cons_append, findAllFrom]
      split
      · exact hnext _ (by rw [List.length_cons] at hskip; omega)
      · split
        · rename_i found hfound
          refine List.mem_cons_of_mem _ (hnext _ ?_)
          -- otherwise the match that is looked for would begin within the one found
          by_cases hstop : front.length + (c :: more).length < found.stop
          · have hnone := hapart front (c :: more) back found hfound (List.cons_ne_nil c more) hstop
            rw [hm] at hnone
            cases hnone
          · rw [List.length_cons] at hstop
            omega
        · exact hnext 0 (Nat.zero_le _)

/-- **A search finds every match** of a pattern whose matches do not begin within one another. -/
theorem mem_findAll_iff {pattern : Pattern} (hapart : pattern.Apart) {text : List Char}
    {m : Match} :
    m ∈ pattern.findAll text ↔ ∃ front back, text = front ++ back ∧ back ≠ [] ∧
      pattern.matchAt? (Place.between front back) = some m := by
  constructor
  · exact matchAt?_of_mem_findAll
  · rintro ⟨front, back, rfl, hback, hm⟩
    have hfrom : m ∈ pattern.findAllFrom 0 ([] : List Char).length (lastOf none [])
        (front ++ back) := mem_findAllFrom_of_apart hapart hback hm (Nat.zero_le _)
    exact hfrom

end Pattern

end CodeSurvey
