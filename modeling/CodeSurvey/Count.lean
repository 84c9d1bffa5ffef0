/-
Counts.

A count is a natural number that fits in 64 bits where it is read.  Totals add from the right, so
that a fact about them is one induction on the list.

Two additions of words are needed besides.  One wraps around and is that of the words; the other
(`checkedAdd`) says so when the sum does not fit, and it is the one that a budget goes by.
-/

namespace CodeSurvey.Count

/-- The first number that does not fit in 64 bits. -/
def limit : Nat := 18446744073709551616

def total (numbers : List Nat) : Nat := numbers.foldr (· + ·) 0

@[simp] theorem total_nil : total [] = 0 := rfl

@[simp] theorem total_cons (n : Nat) (rest : List Nat) : total (n :: rest) = n + total rest := rfl

@[simp] theorem total_append (front back : List Nat) :
    total (front ++ back) = total front + total back := by
  induction front with
  | nil => exact (Nat.zero_add _).symm
  | cons n rest ih => rw [List.cons_append, total_cons, ih, total_cons, Nat.add_assoc]

theorem le_total_of_mem {n : Nat} {numbers : List Nat} (h : n ∈ numbers) : n ≤ total numbers := by
  induction numbers with
  | nil => exact absurd h List.not_mem_nil
  | cons first rest ih =>
    rw [total_cons]
    rcases List.mem_cons.1 h with rfl | h
    · exact Nat.le_add_right _ _
    · exact Nat.le_trans (ih h) (Nat.le_add_left _ _)

theorem total_eq_of_perm {numbers others : List Nat} (h : numbers.Perm others) :
    total numbers = total others := by
  induction h with
  | nil => rfl
  | cons n _ ih => rw [total_cons, total_cons, ih]
  | swap n m rest => simp only [total_cons, Nat.add_left_comm]
  | trans _ _ ih₁ ih₂ => exact ih₁.trans ih₂

/-- The sum of two words, unless it does not fit in 64 bits. -/
def checkedAdd (a b : UInt64) : Option UInt64 :=
  if a + b < a then none else some (a + b)

/-- A sum that does not fit wraps around to less than either word. -/
theorem add_lt_self_iff (a b : UInt64) : a + b < a ↔ limit ≤ a.toNat + b.toNat := by
  have ha := a.toNat_lt
  have hb := b.toNat_lt
  rw [UInt64.lt_iff_toNat_lt, UInt64.toNat_add, limit]
  omega

theorem checkedAdd_eq_some_iff {a b sum : UInt64} :
    checkedAdd a b = some sum ↔ sum.toNat = a.toNat + b.toNat := by
  have hsum := sum.toNat_lt
  unfold checkedAdd
  split
  · rename_i h
    rw [add_lt_self_iff, limit] at h
    simp only [reduceCtorEq, false_iff]
    omega
  · rename_i h
    rw [add_lt_self_iff, limit] at h
    rw [Option.some.injEq, ← UInt64.toNat_inj, UInt64.toNat_add, Nat.mod_eq_of_lt (by omega)]
    exact eq_comm

theorem checkedAdd_eq_none_iff {a b : UInt64} :
    checkedAdd a b = none ↔ limit ≤ a.toNat + b.toNat := by
  rw [← add_lt_self_iff, checkedAdd]
  split <;> simp_all

end CodeSurvey.Count
