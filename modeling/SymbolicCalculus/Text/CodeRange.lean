/-
Module: SymbolicCalculus.Text.CodeRange
Layer: Text
Purpose: Sets of characters given by closed ranges of code points, which is how the properties of
  characters are tabulated.
Main exports: CodeRanges, CodeRanges.has, CodeRanges.areApart, CodeRanges.size
-/

namespace SymbolicCalculus

/-- Closed ranges of code points. -/
abbrev CodeRanges := List (Nat × Nat)

namespace CodeRanges

/-- The character lies in one of the ranges. -/
def has (ranges : CodeRanges) (c : Char) : Bool :=
  ranges.any fun range => range.1 ≤ c.toNat && c.toNat ≤ range.2

/-- The ranges are in ascending order, with a gap between any two. -/
def areApart : CodeRanges → Bool
  | [] => true
  | [range] => range.1 ≤ range.2
  | range :: next :: others =>
      range.1 ≤ range.2 && range.2 + 1 < next.1 && areApart (next :: others)

/-- The number of code points in ranges that are apart. -/
def size : CodeRanges → Nat
  | [] => 0
  | range :: others => range.2 + 1 - range.1 + size others

/-- Membership in a table is membership in one of its ranges. -/
theorem has_iff (ranges : CodeRanges) (c : Char) :
    ranges.has c = true ↔ ∃ range ∈ ranges, range.1 ≤ c.toNat ∧ c.toNat ≤ range.2 := by
  simp [has, List.any_eq_true]

end CodeRanges

end SymbolicCalculus
