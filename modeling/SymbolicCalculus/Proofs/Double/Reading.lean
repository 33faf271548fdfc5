/-
Module: SymbolicCalculus.Proofs.Double.Reading
Layer: Proofs
Purpose: Numbers read from digits have no minus sign. A literal is digits times or over a power of ten;
  products, quotients and rounding keep the plus sign of what they are made of, also where the result is
  zero. A literal that stands for a number stands for a finite one.
Main exports: Unsigned, unsigned_unpack_pack, unsigned_ofScientific, Double.plain_of_ofLiteral?
-/
import SymbolicCalculus.Proofs.Double.Arithmetic

namespace SymbolicCalculus

open Float.Model (Format)
open Float.Model.UnpackedFloat

/-- The form has no minus sign. -/
def Unsigned : Float.Model.UnpackedFloat → Prop
  | .notANumber => True
  | .infinity sign => sign = .positive
  | .zero sign => sign = .positive
  | .finite sign _ _ _ => sign = .positive

/-! ### Operations on forms -/

section Forms

variable {spec : Format} {first second : Float.Model.UnpackedFloat}

theorem unsigned_roundWithAccuracy (mantissa : Nat) (exponent : Int) (accuracy : Accuracy) :
    Unsigned (roundWithAccuracy spec .positive mantissa exponent accuracy) := by
  unfold roundWithAccuracy
  simp only
  split
  · rfl
  · rfl

theorem unsigned_normalize (mantissa : Nat) (exponent : Int) :
    Unsigned (normalize spec mantissa exponent .positive) := by
  unfold Float.Model.UnpackedFloat.normalize
  split
  · next below =>
    rw [Int.compare_eq_lt] at below
    omega
  · rfl
  · exact unsigned_roundWithAccuracy _ _ _

theorem unsigned_mul (plus : Unsigned first) (plus' : Unsigned second) :
    Unsigned (mul spec first second) := by
  cases first with
  | notANumber => trivial
  | infinity | zero =>
    cases plus
    cases second with
    | notANumber => trivial
    | infinity | zero | finite => cases plus'; trivial
  | finite =>
    cases plus
    cases second with
    | notANumber => trivial
    | infinity | zero => cases plus'; rfl
    | finite => cases plus'; exact unsigned_roundWithAccuracy _ _ _

theorem unsigned_div (plus : Unsigned first) (plus' : Unsigned second) :
    Unsigned (div spec first second) := by
  cases first with
  | notANumber => trivial
  | infinity | zero =>
    cases plus
    cases second with
    | notANumber => trivial
    | infinity | zero | finite => cases plus'; trivial
  | finite =>
    cases plus
    cases second with
    | notANumber => trivial
    | infinity | zero => cases plus'; rfl
    | finite => cases plus'; exact unsigned_roundWithAccuracy _ _ _

theorem unsigned_ofScientific (mantissa : Nat) (exponent : Int) :
    Unsigned (ofScientific spec mantissa exponent) := by
  unfold ofScientific
  split
  · rfl
  · split
    · rfl
    · split
      · rfl
      · split
        · exact unsigned_mul rfl rfl
        · exact unsigned_div rfl rfl

/-- A form that is put together with the sign bit clear has no minus sign when it is taken apart. -/
theorem unsigned_unpack {bits : BitVec spec.numBits} (clear : unpackSign bits = 0#1) :
    Unsigned (unpack spec bits) := by
  unfold unpack
  rw [clear]
  simp only
  split
  · split
    · rfl
    · trivial
  · split
    · split <;> rfl
    · rfl

/-- The sign bit of a finite form without a minus sign is clear. -/
theorem unpackSign_of_unsigned {bits : BitVec spec.numBits}
    (finite : (unpack spec bits).isFinite = true) (plus : Unsigned (unpack spec bits)) :
    unpackSign bits = 0#1 := by
  have clear {bit : BitVec 1} (plus : Sign.ofBitVec bit = .positive) : bit = 0#1 := by
    rw [← toBitVec_ofBitVec bit, plus]
    rfl
  unfold unpack at finite plus
  simp only at finite plus
  split at finite
  · split at finite <;> cases finite
  · next notTop =>
    rw [if_neg notTop] at plus
    split at plus
    · split at plus <;> exact clear plus
    · exact clear plus

theorem unsigned_unpack_pack (plus : Unsigned first) : Unsigned (unpack spec (pack spec first)) := by
  refine unsigned_unpack ?_
  cases first with
  | notANumber => exact unpackSign_packComponents
  | infinity | zero => cases plus; exact unpackSign_packComponents
  | finite =>
    cases plus
    unfold pack
    simp only
    split
    · exact unpackSign_packComponents
    · split
      · exact unpackSign_packComponents
      · exact unpackSign_packComponents

end Forms

/-! ### Decimals -/

theorem unsigned_toFloat (n : UInt64) : Unsigned (unpacked n.toFloat) :=
  unsigned_unpack_pack (unsigned_normalize n.toNat 0)

theorem unsigned_powerOfTen :
    ∀ power ∈ Float.exactlyRepresentablePowersOfTen, Unsigned (unpacked power) := by
  have clear : ∀ power ∈ Float.exactlyRepresentablePowersOfTen, unpackSign (floatBits power) = 0#1 := by
    decide +kernel
  exact fun power mem => unsigned_unpack (clear power mem)

theorem unsigned_decimal (digits : Nat) (below : Bool) (places : Nat) :
    Unsigned (unpacked (Float.ofScientific digits below places)) := by
  unfold Float.ofScientific
  split
  · next small =>
    have inside : places < Float.exactlyRepresentablePowersOfTen.size := Nat.lt_succ_of_le small.2
    have power := unsigned_powerOfTen _ (Array.getElem_mem inside)
    have mantissa := unsigned_toFloat digits.toUInt64
    cases below with
    | true => exact unsigned_unpack_pack (unsigned_div mantissa power)
    | false => exact unsigned_unpack_pack (unsigned_mul mantissa power)
  · exact unsigned_unpack_pack (unsigned_ofScientific _ _)

namespace Double

theorem plain_of_unsigned {x : Double} (finite : Scalar.isFinite x = true)
    (plus : Unsigned (unpacked x.value)) : Plain x := by
  rw [plain_iff]
  have finite : (unpacked x.value).isFinite = true := finite
  cases form : unpacked x.value with
  | notANumber | infinity => rw [form] at finite; cases finite
  | finite => trivial
  | zero => rw [form] at plus; cases plus; trivial

/-- A literal stands for a finite number without a minus sign. -/
theorem unsigned_of_ofLiteral? {literal : String} {x : Double} (known : ofLiteral? literal = some x) :
    Scalar.isFinite x = true ∧ Unsigned (unpacked x.value) := by
  obtain ⟨decimal, -, known⟩ := Option.bind_eq_some_iff.1 known
  unfold ofDecimal? at known
  simp only at known
  split at known
  · next finite =>
    cases known
    exact ⟨finite, unsigned_decimal _ _ _⟩
  · cases known

/-- The number that a literal stands for is finite and not the zero with a minus sign. -/
theorem plain_of_ofLiteral? {literal : String} {x : Double} (known : ofLiteral? literal = some x) :
    Plain x := by
  obtain ⟨finite, plus⟩ := unsigned_of_ofLiteral? known
  exact plain_of_unsigned finite plus

theorem hasMinus_of_ofLiteral? {literal : String} {x : Double}
    (known : ofLiteral? literal = some x) : x.hasMinus = false := by
  obtain ⟨finite, plus⟩ := unsigned_of_ofLiteral? known
  have clear : unpackSign (floatBits x.value) = 0#1 := unpackSign_of_unsigned finite plus
  rw [hasMinus, isNaN_of_isFinite finite, if_neg Bool.false_ne_true, testBit_eq, clear]
  rfl

end Double

end SymbolicCalculus
