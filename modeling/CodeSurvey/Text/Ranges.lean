/-
Sorted tables of code point ranges.

A Unicode class is kept as the list of its maximal ranges in ascending order.  Looking a code
point up walks the ranges and stops at the first that begins above it.
-/

namespace CodeSurvey.Text

/-- A class of code points as ascending, disjoint, closed ranges. -/
abbrev Ranges := List (Nat × Nat)

def Ranges.covers : Ranges → Nat → Bool
  | [], _ => false
  | (lo, hi) :: rest, n => if n < lo then false else n ≤ hi || Ranges.covers rest n

end CodeSurvey.Text
