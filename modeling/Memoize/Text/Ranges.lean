/-!
# Code point ranges

Classes of characters are given as lists of closed ranges of code points.
-/

namespace Memoize.Text

/-- Whether `c` lies in one of the closed ranges of `table`. -/
def inRanges (table : List (Nat × Nat)) (c : Nat) : Bool :=
  table.any fun r => r.1 ≤ c && c ≤ r.2

@[simp] theorem inRanges_nil (c : Nat) : inRanges [] c = false := rfl

/-- Membership is membership in one of the ranges. -/
theorem inRanges_eq_true_iff (table : List (Nat × Nat)) (c : Nat) :
    inRanges table c = true ↔ ∃ r ∈ table, r.1 ≤ c ∧ c ≤ r.2 := by
  simp [inRanges]

end Memoize.Text
