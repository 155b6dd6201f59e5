/-!
# Sets of code points

A property of characters is written as the ascending list of its ranges, both ends
included. Looking a code point up stops at the first range that begins beyond it.
-/
namespace CanonicalSql.Unicode

/-- Ranges of code points, both ends included, in ascending order. -/
abbrev Ranges := List (Nat × Nat)

namespace Ranges

/-- Whether the code point lies in one of the ranges. -/
def has : Ranges → Nat → Bool
  | [], _ => false
  | (low, high) :: rest, n =>
    if n < low then false else if n ≤ high then true else has rest n

/-- A code point that is found lies between the ends of some range of the list. -/
theorem exists_of_has {ranges : Ranges} {n : Nat} (found : ranges.has n = true) :
    ∃ range ∈ ranges, range.1 ≤ n ∧ n ≤ range.2 := by
  induction ranges with
  | nil => simp [has] at found
  | cons head tail ih =>
    obtain ⟨low, high⟩ := head
    simp only [has] at found
    split at found
    · simp at found
    · split at found
      · exact ⟨(low, high), by simp, by omega, by omega⟩
      · obtain ⟨range, member, bounds⟩ := ih found
        exact ⟨range, by simp [member], bounds⟩

end Ranges

end CanonicalSql.Unicode
