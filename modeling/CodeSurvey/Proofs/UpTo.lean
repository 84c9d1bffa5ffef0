/-
# Lists that agree up to elements that do not count

Two lists agree if they can be read side by side: an element that does not count is passed over on
either side, and of the others each stands by one that is the same (`UpTo`).  Whatever is made of a
list element by element, and of nothing where an element does not count, agrees as well.

What "the same" means is a parameter, for it need not be equality: elements may differ in their
places and be the same otherwise.  Then what is made of them differs by a move, and the results say
so (`flatMap_eq`, `filterMap_eq`, `foldl_eq`); with the identity for the move they are equal.  The
relation is not a function of the lists with what does not count filtered out, since whether an
element counts may be told differently for what is made of it (`imp`).
-/
import Mathlib.Data.List.Basic
import CodeSurvey.Count

namespace CodeSurvey

/-- The lists agree, up to elements that do not count. -/
inductive UpTo {α : Type} (same : α → α → Prop) (idle : α → Prop) : List α → List α → Prop
  | nil : UpTo same idle [] []
  | left {a : α} {as bs : List α} : idle a → UpTo same idle as bs → UpTo same idle (a :: as) bs
  | right {b : α} {as bs : List α} : idle b → UpTo same idle as bs → UpTo same idle as (b :: bs)
  | both {a b : α} {as bs : List α} : same a b → UpTo same idle as bs →
      UpTo same idle (a :: as) (b :: bs)

namespace UpTo

variable {α β σ : Type} {same : α → α → Prop} {idle : α → Prop} {same' : β → β → Prop}
  {idle' : β → Prop} {as bs as' bs' : List α}

theorem append (h : UpTo same idle as bs) (h' : UpTo same idle as' bs') :
    UpTo same idle (as ++ as') (bs ++ bs') := by
  induction h with
  | nil => exact h'
  | left ha _ ih => exact .left ha ih
  | right hb _ ih => exact .right hb ih
  | both hab _ ih => exact .both hab ih

theorem of_idle_left (h : ∀ a ∈ as, idle a) : UpTo same idle as [] := by
  induction as with
  | nil => exact .nil
  | cons a as ih =>
      obtain ⟨ha, has⟩ := List.forall_mem_cons.1 h
      exact .left ha (ih has)

theorem of_idle_right (h : ∀ b ∈ bs, idle b) : UpTo same idle [] bs := by
  induction bs with
  | nil => exact .nil
  | cons b bs ih =>
      obtain ⟨hb, hbs⟩ := List.forall_mem_cons.1 h
      exact .right hb (ih hbs)

theorem imp {more : α → α → Prop} {pass : α → Prop} (h : UpTo same idle as bs)
    (hsame : ∀ a b, same a b → more a b) (hidle : ∀ a, idle a → pass a) : UpTo more pass as bs := by
  induction h with
  | nil => exact .nil
  | left ha _ ih => exact .left (hidle _ ha) ih
  | right hb _ ih => exact .right (hidle _ hb) ih
  | both hab _ ih => exact .both (hsame _ _ hab) ih

/-- What is made of each element agrees, if it does for elements that are the same. -/
theorem flatMap {f : α → List β} (h : UpTo same idle as bs)
    (hidle : ∀ a, idle a → ∀ x ∈ f a, idle' x)
    (hsame : ∀ a b, same a b → UpTo same' idle' (f a) (f b)) :
    UpTo same' idle' (as.flatMap f) (bs.flatMap f) := by
  induction h with
  | nil => exact .nil
  | left ha _ ih =>
      rw [List.flatMap_cons]
      exact (of_idle_left (hidle _ ha)).append ih
  | right hb _ ih =>
      rw [List.flatMap_cons]
      exact (of_idle_right (hidle _ hb)).append ih
  | both hab _ ih =>
      rw [List.flatMap_cons, List.flatMap_cons]
      exact (hsame _ _ hab).append ih

theorem flatMap_eq {f : α → List β} {move : β → β} (h : UpTo same idle as bs)
    (hidle : ∀ a, idle a → f a = []) (hsame : ∀ a b, same a b → f b = (f a).map move) :
    bs.flatMap f = (as.flatMap f).map move := by
  induction h with
  | nil => rfl
  | left ha _ ih => rw [List.flatMap_cons, hidle _ ha, ih, List.nil_append]
  | right hb _ ih => rw [List.flatMap_cons, hidle _ hb, ih, List.nil_append]
  | both hab _ ih =>
      rw [List.flatMap_cons, List.flatMap_cons, hsame _ _ hab, ih, List.map_append]

theorem flatMap_same {f : α → List β} (h : UpTo same idle as bs) (hidle : ∀ a, idle a → f a = [])
    (hsame : ∀ a b, same a b → f b = f a) : bs.flatMap f = as.flatMap f := by
  have hmoved : bs.flatMap f = (as.flatMap f).map id :=
    h.flatMap_eq hidle (fun a b hab => (hsame a b hab).trans (List.map_id _).symm)
  rwa [List.map_id] at hmoved

theorem filterMap_eq {f : α → Option β} {move : β → β} (h : UpTo same idle as bs)
    (hidle : ∀ a, idle a → f a = none) (hsame : ∀ a b, same a b → f b = (f a).map move) :
    bs.filterMap f = (as.filterMap f).map move := by
  rw [List.filterMap_eq_flatMap_toList, List.filterMap_eq_flatMap_toList]
  refine h.flatMap_eq (fun a ha => ?_) (fun a b hab => ?_)
  · rw [hidle a ha, Option.toList_none]
  · rw [hsame a b hab, Option.toList_map]

theorem foldl_eq {f : σ → α → σ} {move : σ → σ} (h : UpTo same idle as bs)
    (hidle : ∀ s a, idle a → f s a = s) (hsame : ∀ s a b, same a b → f (move s) b = move (f s a))
    (s : σ) : bs.foldl f (move s) = move (as.foldl f s) := by
  induction h generalizing s with
  | nil => rfl
  | left ha _ ih => rw [List.foldl_cons, hidle _ _ ha, ih]
  | right hb _ ih => rw [List.foldl_cons, hidle _ _ hb, ih]
  | both hab _ ih => rw [List.foldl_cons, List.foldl_cons, hsame _ _ _ hab, ih]

theorem foldl_same {f : σ → α → σ} (h : UpTo same idle as bs) (hidle : ∀ s a, idle a → f s a = s)
    (hsame : ∀ s a b, same a b → f s b = f s a) (s : σ) : bs.foldl f s = as.foldl f s := by
  have hmoved : bs.foldl f (id s) = id (as.foldl f s) := h.foldl_eq hidle hsame s
  exact hmoved

theorem total_eq {f : α → Nat} (h : UpTo same idle as bs) (hidle : ∀ a, idle a → f a = 0)
    (hsame : ∀ a b, same a b → f b = f a) :
    Count.total (bs.map f) = Count.total (as.map f) := by
  induction h with
  | nil => rfl
  | left ha _ ih => rw [List.map_cons, Count.total_cons, hidle _ ha, ih, Nat.zero_add]
  | right hb _ ih => rw [List.map_cons, Count.total_cons, hidle _ hb, ih, Nat.zero_add]
  | both hab _ ih =>
      rw [List.map_cons, List.map_cons, Count.total_cons, Count.total_cons, hsame _ _ hab, ih]

theorem countP_eq {p : α → Bool} (h : UpTo same idle as bs) (hidle : ∀ a, idle a → p a = false)
    (hsame : ∀ a b, same a b → p b = p a) : bs.countP p = as.countP p := by
  induction h with
  | nil => rfl
  | left ha _ ih => rw [List.countP_cons_of_neg (Bool.eq_false_iff.1 (hidle _ ha)), ih]
  | right hb _ ih => rw [List.countP_cons_of_neg (Bool.eq_false_iff.1 (hidle _ hb)), ih]
  | both hab _ ih => rw [List.countP_cons, List.countP_cons, hsame _ _ hab, ih]

/-- Where every element counts, the lists are the same one by one. -/
theorem map_eq {f : α → β} {move : β → β} (h : UpTo same (fun _ => False) as bs)
    (hsame : ∀ a b, same a b → f b = move (f a)) : bs.map f = (as.map f).map move := by
  induction h with
  | nil => rfl
  | left ha _ _ => exact ha.elim
  | right hb _ _ => exact hb.elim
  | both hab _ ih => rw [List.map_cons, List.map_cons, List.map_cons, hsame _ _ hab, ih]

end UpTo

end CodeSurvey
