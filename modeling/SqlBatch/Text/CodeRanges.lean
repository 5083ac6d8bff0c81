/-!
# Sets of characters as ranges of code points

The classes of the Unicode character database are stored as lists of closed ranges. Membership runs
through the list, so that a class can be tested and compared with another one by evaluation.
-/

namespace SqlBatch

/-- Closed ranges of code points, each by its first and last member. -/
abbrev CodeRanges := List (Nat × Nat)

/-- Whether a character lies in one of the ranges. -/
def CodeRanges.covers (ranges : CodeRanges) (c : Char) : Bool :=
  ranges.any fun (first, last) ↦ first ≤ c.toNat && c.toNat ≤ last

/-- A character is covered by one of the ranges. -/
theorem CodeRanges.covers_iff {ranges : CodeRanges} {c : Char} :
    ranges.covers c = true ↔ ∃ r ∈ ranges, r.1 ≤ c.toNat ∧ c.toNat ≤ r.2 := by
  simp [covers]

end SqlBatch
