/-
Module: SymbolicCalculus.Proofs.Exact.Reading
Layer: Proofs
Purpose: Texts read with exact numbers. A literal stands for the decimal that its digits write, with nothing
  rounded and none too large. So all that is said of texts and of functions made from them holds with exact
  numbers, and differences that come from rounding alone are left out.
Main exports: Exact.ofLiteral?, the instance Numeral Exact
-/
import SymbolicCalculus.Decimal.Positional
import SymbolicCalculus.Proofs.Exact.Number

namespace SymbolicCalculus.Exact

/-- The real number that a decimal writes. -/
noncomputable def ofDecimal (d : Decimal) : Exact := real (d.digits * ((10 : ℕ) : ℝ) ^ d.exponent)

/-- The number that a literal stands for. -/
noncomputable def ofLiteral? (literal : String) : Option Exact :=
  (Decimal.ofPositional? literal.toList).map ofDecimal

open Classical in
/-- A literal that stands for the number, behind a minus sign if it stands for the negative. Most numbers
    have none. -/
noncomputable def text (x : Exact) : String :=
  if written : ∃ literal, ofLiteral? literal = some x then written.choose
  else if negated : ∃ literal, ofLiteral? literal = some (-x) then "-" ++ negated.choose
  else "NaN"

noncomputable instance : Numeral Exact where
  text := text
  ofLiteral? := ofLiteral?

end SymbolicCalculus.Exact
