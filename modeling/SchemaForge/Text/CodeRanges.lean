/-!
# Sets of characters as ranges of code points

A character class of a standard is data: a list of closed ranges. Membership is a search through the
list, so a class can be both run and reasoned about.
-/

namespace SchemaForge.Text

/-- Closed ranges of code points. -/
abbrev CodeRanges := List (Nat × Nat)

/-- Does one of the ranges hold the character? -/
def CodeRanges.holds (ranges : CodeRanges) (c : Char) : Bool :=
  ranges.any fun range => range.1 ≤ c.toNat && c.toNat ≤ range.2

theorem CodeRanges.holds_iff {ranges : CodeRanges} {c : Char} :
    ranges.holds c = true ↔ ∃ range ∈ ranges, range.1 ≤ c.toNat ∧ c.toNat ≤ range.2 := by
  simp [CodeRanges.holds, List.any_eq_true]

end SchemaForge.Text
