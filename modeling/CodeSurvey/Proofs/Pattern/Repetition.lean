/-
# Where a repetition ends

A repetition may end at several places, and what follows it decides: a greedy one ends at the
farthest place that the rest of the pattern matches at, a reluctant one at the nearest.

So a first run through a repetition has two premises.  The rest of the pattern has a run where the
repetition is said to end; and it has none at the places that come before that in the order of
preference, which are those farther on for a greedy repetition (`head?_flatMap_runsOf`) and those
in front for a reluctant one (`head?_flatMap_reverse_runsOf`).  Nothing is asked of the places on
the other side.  With a group around the repetition its text is then known, not only its end
(`first_group_many_append`, `first_group_few_append`).
-/
import CodeSurvey.Proofs.Pattern.Places

namespace CodeSurvey.Pattern

/-! ## The ends in order -/

theorem runEnds_eq_append (p : Char → Bool) (text : List Char) (here : Place)
    (passed : List Place) : runEnds p text here passed = runEnds p text here [] ++ passed := by
  induction text generalizing here passed with
  | nil => rfl
  | cons c rest ih =>
      rw [runEnds, runEnds]
      split
      · rw [ih _ (_ :: passed), ih _ [_], List.append_assoc]
        rfl
      · rfl

theorem runsOf_of_head? {p : Char → Bool} (front : List Char) {rest : List Char}
    (h : rest.head?.any p = false) :
    runsOf p (Place.between front rest) = [Place.between front rest] := by
  cases rest with
  | nil => rfl
  | cons c rest =>
      have hc : p c = false := h
      rw [runsOf, Place.between, runEnds, if_neg (Bool.eq_false_iff.1 hc)]

theorem head?_any_cons {p : Char → Bool} {c : Char} (hc : p c = false) (rest : List Char) :
    (c :: rest).head?.any p = false := hc

/-- The ends behind the first character come before the place itself. -/
theorem runsOf_cons {p : Char → Bool} {c : Char} (hc : p c = true) (front rest : List Char) :
    runsOf p (Place.between front (c :: rest)) =
      runsOf p (Place.between (front ++ [c]) rest) ++ [Place.between front (c :: rest)] := by
  have hnext : (⟨front.length + 1, some c, rest⟩ : Place) = Place.between (front ++ [c]) rest := by
    rw [Place.between, List.length_append, lastOf_append]
    rfl
  have hthere : runsOf p (Place.between (front ++ [c]) rest) =
      runEnds p rest (Place.between (front ++ [c]) rest) [] ++
        [Place.between (front ++ [c]) rest] :=
    runEnds_eq_append p rest _ _
  rw [hthere, runsOf, Place.between, runEnds, if_pos hc, runEnds_eq_append, hnext,
    List.append_assoc]
  rfl

theorem exists_between_of_mem_runsOf {p : Char → Bool} {front rest : List Char} {there : Place}
    (h : there ∈ runsOf p (Place.between front rest)) :
    ∃ more back, rest = more ++ back ∧ (∀ c ∈ more, p c = true) ∧
      there = Place.between (front ++ more) back := by
  have hrun : (there, []) ∈ (many p).runs (Place.between front rest, []) :=
    List.mem_map.2 ⟨there, h, rfl⟩
  have hover : (many p).Over (p · = true) := fun _ hc => hc
  obtain ⟨more, back, hrest, hthere, hmore⟩ := between_of_mem_runs hover hrun
  exact ⟨more, back, hrest, hmore, hthere⟩

/-! ## Greedy and reluctant -/

section Ends

variable {α : Type} {p : Char → Bool} {f : Place → List α} {front inner rest : List Char} {out : α}

theorem head?_flatMap_runsOf (hinner : ∀ c ∈ inner, p c = true)
    (hend : (f (Place.between (front ++ inner) rest)).head? = some out)
    (hfar : ∀ more back, rest = more ++ back → more ≠ [] → (∀ c ∈ more, p c = true) →
      f (Place.between (front ++ (inner ++ more)) back) = []) :
    ((runsOf p (Place.between front (inner ++ rest))).flatMap f).head? = some out := by
  induction inner generalizing front with
  | nil =>
      rw [List.nil_append]
      rw [List.append_nil] at hend
      cases hrest : rest with
      | nil =>
          rw [runsOf_of_head? front rfl, List.flatMap_singleton, ← hrest]
          exact hend
      | cons c back =>
          cases hc : p c with
          | false =>
              rw [runsOf_of_head? front (head?_any_cons hc back), List.flatMap_singleton, ← hrest]
              exact hend
          | true =>
              have hnone : (runsOf p (Place.between (front ++ [c]) back)).flatMap f = [] := by
                rw [List.flatMap_eq_nil_iff]
                intro there hthere
                obtain ⟨more, behind, rfl, hmore, rfl⟩ := exists_between_of_mem_runsOf hthere
                have hlater := hfar (c :: more) behind hrest (List.cons_ne_nil c more)
                  (List.forall_mem_cons.2 ⟨hc, hmore⟩)
                rw [List.append_assoc]
                exact hlater
              rw [runsOf_cons hc, List.flatMap_append, hnone, List.flatMap_singleton, ← hrest]
              exact hend
  | cons c inner ih =>
      obtain ⟨hc, hothers⟩ := List.forall_mem_cons.1 hinner
      rw [List.cons_append, runsOf_cons hc, List.flatMap_append, List.head?_append,
        ih hothers (by rw [List.append_assoc]; exact hend)]
      · rfl
      · intro more back hrest hne hmore
        rw [List.append_assoc]
        exact hfar more back hrest hne hmore

theorem head?_flatMap_reverse_runsOf (hinner : ∀ c ∈ inner, p c = true)
    (hend : (f (Place.between (front ++ inner) rest)).head? = some out)
    (hnear : ∀ less more, inner = less ++ more → more ≠ [] →
      f (Place.between (front ++ less) (more ++ rest)) = []) :
    ((runsOf p (Place.between front (inner ++ rest))).reverse.flatMap f).head? = some out := by
  induction inner generalizing front with
  | nil =>
      rw [List.append_nil] at hend
      rw [List.nil_append]
      have hfirst : ∃ others, (runsOf p (Place.between front rest)).reverse =
          Place.between front rest :: others := by
        cases rest with
        | nil => exact ⟨[], rfl⟩
        | cons c back =>
            cases hc : p c with
            | false => exact ⟨[], by rw [runsOf_of_head? front (head?_any_cons hc back)]; rfl⟩
            | true => exact ⟨_, by rw [runsOf_cons hc, List.reverse_concat]⟩
      obtain ⟨others, hothers⟩ := hfirst
      rw [hothers, List.flatMap_cons, List.head?_append, hend]
      rfl
  | cons c inner ih =>
      obtain ⟨hc, hothers⟩ := List.forall_mem_cons.1 hinner
      have hhere : f (Place.between front (c :: (inner ++ rest))) = [] := by
        have hnone := hnear [] (c :: inner) rfl (List.cons_ne_nil c inner)
        rw [List.append_nil] at hnone
        exact hnone
      rw [List.cons_append, runsOf_cons hc, List.reverse_concat, List.flatMap_cons, hhere,
        List.nil_append]
      refine ih hothers (by rw [List.append_assoc]; exact hend) ?_
      intro less more hsplit hne
      rw [List.append_assoc]
      exact hnear (c :: less) more (by rw [hsplit]; rfl) hne

end Ends

theorem first_group_many_append {n : Nat} {p : Char → Bool} {k : Pattern}
    {front inner rest : List Char} {groups : Groups} {out : Place × Groups}
    (hinner : ∀ c ∈ inner, p c = true)
    (hend : First k (Place.between (front ++ inner) rest,
      (n, ⟨Place.between front (inner ++ rest), Place.between (front ++ inner) rest⟩) :: groups)
        out)
    (hfar : ∀ more back, rest = more ++ back → more ≠ [] → ∀ here groups,
      k.runs (Place.between here back, groups) = []) :
    First (group n (many p) ++ k) (Place.between front (inner ++ rest), groups) out := by
  let start := Place.between front (inner ++ rest)
  have hruns : (group n (many p) ++ k).runs (start, groups) =
      (runsOf p start).flatMap (fun stop => k.runs (stop, (n, ⟨start, stop⟩) :: groups)) := by
    show (((runsOf p start).map (·, groups)).map _).flatMap k.runs = _
    rw [List.map_map, List.flatMap_map]
    rfl
  show ((group n (many p) ++ k).runs (start, groups)).head? = some out
  rw [hruns]
  refine head?_flatMap_runsOf hinner hend ?_
  intro more back hrest hne hmore
  exact hfar more back hrest hne _ _

theorem runs_one {p : Char → Bool} {c : Char} (hc : p c = true) (front rest : List Char)
    (groups : Groups) :
    (one p).runs (Place.between front (c :: rest), groups) =
      [(Place.between (front ++ [c]) rest, groups)] := by
  have hnext : (⟨front.length + 1, some c, rest⟩ : Place) = Place.between (front ++ [c]) rest := by
    rw [Place.between, List.length_append, lastOf_append]
    rfl
  rw [← hnext]
  simp only [runs, Place.step?, Place.between, hc, if_true, Option.toList_some, List.map_singleton]

theorem first_few_append {p : Char → Bool} {k : Pattern} {front inner rest : List Char}
    {groups : Groups} {out : Place × Groups} (hinner : ∀ d ∈ inner, p d = true)
    (hend : First k (Place.between (front ++ inner) rest, groups) out)
    (hnear : ∀ less more, inner = less ++ more → more ≠ [] →
      k.runs (Place.between (front ++ less) (more ++ rest), groups) = []) :
    First (few p ++ k) (Place.between front (inner ++ rest), groups) out := by
  have hruns : (few p ++ k).runs (Place.between front (inner ++ rest), groups) =
      (runsOf p (Place.between front (inner ++ rest))).reverse.flatMap
        (fun stop => k.runs (stop, groups)) := by
    show ((runsOf p (Place.between front (inner ++ rest))).reverse.map (·, groups)).flatMap
      k.runs = _
    rw [List.flatMap_map]
  show ((few p ++ k).runs (Place.between front (inner ++ rest), groups)).head? = some out
  rw [hruns]
  exact head?_flatMap_reverse_runsOf hinner hend hnear

theorem first_group_few_append {n : Nat} {p q : Char → Bool} {k : Pattern} {c : Char}
    {front inner rest : List Char} {groups : Groups} {out : Place × Groups} (hc : q c = true)
    (hinner : ∀ d ∈ inner, p d = true)
    (hend : First k (Place.between (front ++ c :: inner) rest,
      (n, ⟨Place.between front (c :: inner ++ rest), Place.between (front ++ c :: inner) rest⟩) ::
        groups) out)
    (hnear : ∀ less more, inner = less ++ more → more ≠ [] → ∀ groups,
      k.runs (Place.between (front ++ c :: less) (more ++ rest), groups) = []) :
    First (group n (one q ++ few p) ++ k) (Place.between front (c :: inner ++ rest), groups)
      out := by
  let start := Place.between front (c :: inner ++ rest)
  have hruns : (group n (one q ++ few p) ++ k).runs (start, groups) =
      (runsOf p (Place.between (front ++ [c]) (inner ++ rest))).reverse.flatMap
        (fun stop => k.runs (stop, (n, ⟨start, stop⟩) :: groups)) := by
    have hone : (one q).runs (start, groups) =
        [(Place.between (front ++ [c]) (inner ++ rest), groups)] :=
      runs_one hc front (inner ++ rest) groups
    have hfew : (one q ++ few p).runs (start, groups) =
        (runsOf p (Place.between (front ++ [c]) (inner ++ rest))).reverse.map (·, groups) := by
      show ((one q).runs (start, groups)).flatMap (few p).runs = _
      rw [hone, List.flatMap_singleton]
      rfl
    show (((one q ++ few p).runs (start, groups)).map _).flatMap k.runs = _
    rw [hfew, List.map_map, List.flatMap_map]
    rfl
  show ((group n (one q ++ few p) ++ k).runs (start, groups)).head? = some out
  rw [hruns]
  refine head?_flatMap_reverse_runsOf hinner ?_ ?_
  · rw [List.append_assoc]
    exact hend
  · intro less more hsplit hne
    rw [List.append_assoc]
    exact hnear less more hsplit hne _

/-! ## Rounds -/

section Rounds

variable {step : Place × Groups → List (Place × Groups)} {here mid out : Place × Groups}

theorem head?_roundsOf_succ {fuel : Nat} (hstep : (step here).head? = some mid)
    (hmove : here.1.offset < mid.1.offset) (hrest : (roundsOf step fuel mid).head? = some out) :
    (roundsOf step (fuel + 1) here).head? = some out := by
  obtain ⟨others, hothers⟩ := List.head?_eq_some_iff.1 hstep
  have hmoves : decide (here.1.offset < mid.1.offset) = true := decide_eq_true hmove
  rw [roundsOf, hothers, List.filter_cons, if_pos hmoves, List.flatMap_cons, List.append_assoc,
    List.head?_append, hrest]
  rfl

theorem head?_roundsOf_of_nil (hstep : step here = []) (fuel : Nat) :
    (roundsOf step fuel here).head? = some here := by
  cases fuel with
  | zero => rfl
  | succ fuel =>
      rw [roundsOf, hstep]
      rfl

end Rounds

/-! ## Sequences -/

/-- An option that can be taken is taken. -/
theorem First.takeUp {a : Pattern} {here out : Place × Groups} (h : First a here out) :
    First (optional a) here out := by
  show (a.runs here ++ [here]).head? = some out
  rw [List.head?_append, h]
  rfl

theorem runs_append_assoc (a b c : Pattern) (here : Place × Groups) :
    (a ++ b ++ c).runs here = (a ++ (b ++ c)).runs here :=
  List.flatMap_assoc

end CodeSurvey.Pattern
