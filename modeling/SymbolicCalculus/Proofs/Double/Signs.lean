/-
Module: SymbolicCalculus.Proofs.Double.Signs
Layer: Proofs
Purpose: The three ways to turn the sign of a finite machine number around lead to a finite number: a minus
  sign, the difference from zero and the product with minus one. The last has to be rounded, since the
  product of the mantissas is too long by as many places as minus one has; taking these off leaves it as it
  was.
Main exports: eq_minusOne_of_compare, canonical_minusOne_mul, Double.isFinite_zero_sub,
  Double.isFinite_minusOne_mul
-/
import SymbolicCalculus.Proofs.Double.Arithmetic

namespace SymbolicCalculus

open Float.Model (Format)
open Float.Model.UnpackedFloat

/-! ### Forms -/

/-- The form of the number minus one. -/
def minusOne : Float.Model.UnpackedFloat := one.neg

/-- Only minus one is equal to minus one. -/
theorem eq_minusOne_of_compare {form : Float.Model.UnpackedFloat}
    (equal : form.compare minusOne = some .eq) : form = minusOne := by
  cases form with
  | notANumber => cases equal
  | zero => cases equal
  | infinity sign => cases sign <;> cases equal
  | finite sign mantissa exponent pos =>
    cases sign with
    | positive => cases equal
    | negative =>
      have swapped : ((compare exponent (-52)).then (compare mantissa (2 ^ 52))).swap = .eq :=
        Option.some.inj equal
      rw [Ordering.swap_eq_eq, Ordering.then_eq_eq, Int.compare_eq_eq, Nat.compare_eq_eq] at swapped
      obtain ⟨rfl, rfl⟩ := swapped
      rfl

/-- Only zeroes are equal to zero. -/
theorem eq_zero_of_compare {form : Float.Model.UnpackedFloat}
    (equal : form.compare (.zero .positive) = some .eq) : ∃ sign, form = .zero sign := by
  cases form with
  | notANumber => cases equal
  | zero sign => exact ⟨sign, rfl⟩
  | infinity sign => cases sign <;> cases equal
  | finite sign => cases sign <;> cases equal

/-- The difference of zero and a finite number is that number with the other sign. -/
theorem canonical_zero_sub (sign : Sign) {form : Float.Model.UnpackedFloat} (canonical : Canonical form)
    (finite : form.isFinite = true) :
    Canonical (sub .binary64 (.zero sign) form) ∧ (sub .binary64 (.zero sign) form).isFinite = true := by
  cases canonical with
  | notANumber | infinity => cases finite
  | zero sign' => cases sign <;> cases sign' <;> exact ⟨.zero _, rfl⟩
  | finite short low high full => exact ⟨.finite short low high full, rfl⟩

/-- The mantissa of minus one has 52 places behind its first, and as many are taken off the product. -/
theorem canonical_minusOne_mul {form : Float.Model.UnpackedFloat} (canonical : Canonical form)
    (finite : form.isFinite = true) :
    Canonical (mul .binary64 minusOne form) ∧ (mul .binary64 minusOne form).isFinite = true := by
  cases canonical with
  | notANumber | infinity => cases finite
  | zero sign => exact ⟨.zero _, rfl⟩
  | @finite sign mantissa exponent pos short low high full =>
    have length : (2 ^ 52 * mantissa).log2 = mantissa.log2 + 52 := by
      rw [Nat.mul_comm, ← Nat.shiftLeft_eq, log2_shiftLeft pos]
    have bits : mantissa.log2 < 53 := (Nat.log2_lt (Nat.ne_of_gt pos)).2 short
    have fullBits : 52 ≤ mantissa.log2 ∨ exponent = -1074 := by
      rw [Nat.le_log2 (Nat.ne_of_gt pos)]
      exact full
    have amount : (max ((2 ^ 52 * mantissa).log2 + (-52 + exponent) - 52) (-1074) -
        (-52 + exponent)).toNat = 52 := by
      rw [length]
      omega
    have bounds := roundedPlaces_bounds (2 ^ 52 * mantissa) 52
    rw [Nat.mul_div_cancel_left mantissa (Nat.two_pow_pos 52)] at bounds
    have notLonger : roundedPlaces (2 ^ 52 * mantissa) 52 < 2 ^ 53 := roundedPlaces_lt (by omega)
    have rounding : mul .binary64 minusOne (.finite sign mantissa exponent pos) =
        .finite (.negative * sign) (roundedPlaces (2 ^ 52 * mantissa) 52) (-52 + exponent + (52 : Nat))
          (by omega) := by
      change roundWithAccuracy .binary64 (.negative * sign) (2 ^ 52 * mantissa) (-52 + exponent) .exact = _
      rw [roundWithAccuracy_eq amount (by omega), if_pos notLonger]
    rw [rounding]
    exact ⟨.finite notLonger (by omega) (by omega) (by omega), rfl⟩

/-! ### Machine numbers -/

theorem unpacked_sub {x y : Float} (canonical : Canonical (sub .binary64 (unpacked x) (unpacked y))) :
    unpacked (x - y) = sub .binary64 (unpacked x) (unpacked y) := canonical.unpack_pack

theorem unpacked_mul {x y : Float} (canonical : Canonical (mul .binary64 (unpacked x) (unpacked y))) :
    unpacked (x * y) = mul .binary64 (unpacked x) (unpacked y) := canonical.unpack_pack

namespace Double

variable {x : Double} (finite : Scalar.isFinite x = true)
include finite

theorem isFinite_zero_sub {zero : Double} (equal : (zero == Scalar.ofNat 0) = true) :
    Scalar.isFinite (zero - x) = true := by
  rw [beq_eq, beq_iff_eq] at equal
  obtain ⟨sign, form⟩ := eq_zero_of_compare equal
  obtain ⟨canonical, isFinite⟩ := canonical_zero_sub sign (canonical_unpacked x.value) finite
  rw [← form] at canonical isFinite
  change (unpacked (zero.value - x.value)).isFinite = true
  rw [unpacked_sub canonical, isFinite]

theorem isFinite_minusOne_mul {factor : Double} (equal : (factor == -Scalar.ofNat 1) = true) :
    Scalar.isFinite (factor * x) = true := by
  rw [beq_eq, beq_iff_eq] at equal
  have form : unpacked factor.value = minusOne := eq_minusOne_of_compare equal
  obtain ⟨canonical, isFinite⟩ := canonical_minusOne_mul (canonical_unpacked x.value) finite
  rw [← form] at canonical isFinite
  change (unpacked (factor.value * x.value)).isFinite = true
  rw [unpacked_mul canonical, isFinite]

end Double

end SymbolicCalculus
