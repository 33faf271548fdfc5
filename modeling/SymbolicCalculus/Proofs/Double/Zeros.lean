/-
Module: SymbolicCalculus.Proofs.Double.Zeros
Layer: Proofs
Purpose: Arithmetic on the zeros among the machine numbers. There are two of them, and an operation on zeros
  leads to one of the two; a product with a zero, and zero divided by another number, do as well unless there
  is no result at all. Once zero is added to what was computed, only the zero without a minus sign is left.
Main exports: Double.isZero_iff, mul_of_zero, div_of_zero, the instance AbsorbsZero Double
-/
import SymbolicCalculus.Proofs.Calculus.Independent
import SymbolicCalculus.Proofs.Double.Signs

namespace SymbolicCalculus

open Float.Model.UnpackedFloat

/-! ### Forms -/

/-- The form of a zero, or that of no number. -/
inductive ZeroOrNone : Float.Model.UnpackedFloat → Prop where
  | zero (sign : Sign) : ZeroOrNone (.zero sign)
  | none : ZeroOrNone .notANumber

theorem ZeroOrNone.canonical {form : Float.Model.UnpackedFloat} (zero : ZeroOrNone form) :
    Canonical form := by
  cases zero with
  | zero sign => exact .zero sign
  | none => exact .notANumber

theorem add_of_zeros (sign sign' : Sign) :
    ∃ sign'', add .binary64 (.zero sign) (.zero sign') = .zero sign'' := by
  cases sign <;> cases sign' <;> exact ⟨_, rfl⟩

theorem sub_of_zeros (sign sign' : Sign) :
    ∃ sign'', sub .binary64 (.zero sign) (.zero sign') = .zero sign'' := by
  cases sign <;> cases sign' <;> exact ⟨_, rfl⟩

/-- Zero times an infinity is no number. -/
theorem mul_of_zero {first second : Float.Model.UnpackedFloat}
    (zero : (∃ sign, first = .zero sign) ∨ ∃ sign, second = .zero sign) :
    ZeroOrNone (mul .binary64 first second) := by
  obtain ⟨sign, rfl⟩ | ⟨sign, rfl⟩ := zero
  · cases second with
    | notANumber | infinity => exact .none
    | zero | finite => exact .zero _
  · cases first with
    | notANumber | infinity => exact .none
    | zero | finite => exact .zero _

/-- Zero divided by an infinity is zero. -/
theorem div_of_zero (sign : Sign) {divisor : Float.Model.UnpackedFloat}
    (other : ∀ sign', divisor ≠ .zero sign') : ZeroOrNone (div .binary64 (.zero sign) divisor) := by
  cases divisor with
  | notANumber => exact .none
  | zero sign' => exact absurd rfl (other sign')
  | infinity | finite => exact .zero _

theorem unpacked_div {x y : Float} (canonical : Canonical (div .binary64 (unpacked x) (unpacked y))) :
    unpacked (x / y) = div .binary64 (unpacked x) (unpacked y) := canonical.unpack_pack

namespace Double

/-! ### Machine numbers -/

variable {a b : Double}

theorem isZero_iff : IsZero a ↔ ∃ sign, unpacked a.value = .zero sign := by
  rw [IsZero, beq_eq, beq_iff_eq]
  constructor
  · exact eq_zero_of_compare
  · rintro ⟨sign, form⟩
    rw [form]
    rfl

theorem isFinite_of_isZero (zero : IsZero a) : Scalar.isFinite a = true := by
  obtain ⟨sign, form⟩ := isZero_iff.1 zero
  change (unpacked a.value).isFinite = true
  rw [form]
  rfl

/-- What comes out of an operation is a zero if the form of the result is. -/
theorem isZero_of_zero {form : Float.Model.UnpackedFloat}
    (packed : Canonical form → unpacked a.value = form) (zero : ∃ sign, form = .zero sign) :
    IsZero a := by
  obtain ⟨sign, rfl⟩ := zero
  exact isZero_iff.2 ⟨sign, packed (.zero sign)⟩

/-- If there is a result at all, there is no other form than that of a zero. -/
theorem isZero_of_zeroOrNone {form : Float.Model.UnpackedFloat}
    (packed : Canonical form → unpacked a.value = form) (zero : ZeroOrNone form)
    (finite : Scalar.isFinite a = true) : IsZero a := by
  have same := packed zero.canonical
  cases zero with
  | zero sign => exact isZero_iff.2 ⟨sign, same⟩
  | none =>
    have finite : (unpacked a.value).isFinite = true := finite
    rw [same] at finite
    cases finite

theorem isZero_add (left : IsZero a) (right : IsZero b) : IsZero (a + b) := by
  obtain ⟨sign, form⟩ := isZero_iff.1 left
  obtain ⟨sign', form'⟩ := isZero_iff.1 right
  refine isZero_of_zero unpacked_add ?_
  rw [form, form']
  exact add_of_zeros sign sign'

theorem isZero_sub (left : IsZero a) (right : IsZero b) : IsZero (a - b) := by
  obtain ⟨sign, form⟩ := isZero_iff.1 left
  obtain ⟨sign', form'⟩ := isZero_iff.1 right
  refine isZero_of_zero unpacked_sub ?_
  rw [form, form']
  exact sub_of_zeros sign sign'

theorem isZero_neg (zero : IsZero a) : IsZero (-a) := by
  obtain ⟨sign, form⟩ := isZero_iff.1 zero
  have number := isNaN_of_isFinite (isFinite_of_isZero zero)
  have negated : unpacked (-a).value = (unpacked a.value).neg := unpacked_neg number
  rw [form] at negated
  exact isZero_iff.2 ⟨-sign, negated⟩

theorem isZero_zero : IsZero (Scalar.ofNat 0 : Double) := isZero_iff.2 ⟨.positive, rfl⟩

theorem isZero_mul (zero : IsZero a ∨ IsZero b) (finite : Scalar.isFinite (a * b) = true) :
    IsZero (a * b) :=
  isZero_of_zeroOrNone unpacked_mul (mul_of_zero (zero.imp isZero_iff.1 isZero_iff.1)) finite

theorem isZero_div (zero : IsZero a) (other : ¬ IsZero b) (finite : Scalar.isFinite (a / b) = true) :
    IsZero (a / b) := by
  obtain ⟨sign, numerator⟩ := isZero_iff.1 zero
  refine isZero_of_zeroOrNone unpacked_div ?_ finite
  rw [numerator]
  exact div_of_zero sign fun sign' same => other (isZero_iff.2 ⟨sign', same⟩)

/-- Among the numbers that are not the zero with a minus sign there is only one zero. -/
theorem eq_zero_of_plain (zero : IsZero a) (plain : Plain a) : a = Scalar.ofNat 0 := by
  obtain ⟨sign, form⟩ := isZero_iff.1 zero
  have positive : sign = .positive := by
    have plainForm := plain_iff.1 plain
    rw [form] at plainForm
    cases sign with
    | positive => rfl
    | negative => cases plainForm
  rw [positive, ← unpacked_zero] at form
  exact Double.ext (unpacked_injective form) (minusOfNaN_of_isFinite plain.1)

instance : AbsorbsZero Double where
  zero := isZero_zero
  not_one a zero := by
    obtain ⟨sign, form⟩ := isZero_iff.1 zero
    rw [beq_eq, form]
    rfl
  neg a zero := ⟨isFinite_of_isZero (isZero_neg zero), isZero_add (isZero_neg zero) isZero_zero⟩
  add a b left right :=
    ⟨isFinite_of_isZero (isZero_add left right), isZero_add (isZero_add left right) isZero_zero⟩
  sub a b left right :=
    ⟨isFinite_of_isZero (isZero_sub left right), isZero_add (isZero_sub left right) isZero_zero⟩
  mul a b zero finite := isZero_add (isZero_mul zero finite) isZero_zero
  div a b zero other finite := isZero_add (isZero_div zero other finite) isZero_zero
  computed a finite zero := eq_zero_of_plain zero (plain_add_zero finite)

end Double

end SymbolicCalculus
