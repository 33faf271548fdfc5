/-
Module: SymbolicCalculus.Proofs.Double.Bits
Layer: Proofs
Purpose: The bits of a machine number and what negation does to them. The number is taken apart into its
  sign, its exponent and its mantissa and put together again without loss, and negation turns over the
  sign alone; so it undoes itself, and the magnitude that is written stays the same.
Main exports: floatBits, pack_unpack, floatBits_neg, neg_neg_float, isFinite_neg, Binary.ofFloat_neg,
  Double.isNaN_of_isFinite, Double.minusOfNaN_of_isFinite, Double.isFinite_neg
-/
import Mathlib
import SymbolicCalculus.Double

namespace SymbolicCalculus

open Float.Model (Format)
open Float.Model.UnpackedFloat

/-! ### Sign, exponent and mantissa -/

section Components

variable {spec : Format}

theorem ofBitVec_toBitVec (sign : Sign) : Sign.ofBitVec sign.toBitVec = sign := by
  cases sign <;> rfl

theorem toBitVec_ofBitVec (bit : BitVec 1) : (Sign.ofBitVec bit).toBitVec = bit := by
  revert bit
  decide

theorem unpackSign_packComponents {sign : Sign} {exponent : BitVec spec.exponentBits}
    {mantissa : BitVec spec.mantissaBitsWithoutImplicit} :
    unpackSign (packComponents spec sign exponent mantissa) = sign.toBitVec := by
  refine BitVec.eq_of_getLsbD_eq fun place bound => ?_
  have first : place = 0 := by omega
  have high : ¬ spec.mantissaBitsWithoutImplicit + spec.exponentBits <
      spec.mantissaBitsWithoutImplicit := by omega
  subst first
  simp [unpackSign, packComponents, BitVec.getLsbD_append, BitVec.getElem_append, high]

/-- The three parts are all that there is. -/
theorem packComponents_unpack (bits : BitVec spec.numBits) :
    packComponents spec (Sign.ofBitVec (unpackSign bits)) (unpackExponent bits)
      (unpackMantissa bits) = bits := by
  have width : spec.numBits = 1 + spec.exponentBits + spec.mantissaBitsWithoutImplicit := rfl
  refine BitVec.eq_of_getLsbD_eq fun place bound => ?_
  rw [packComponents, toBitVec_ofBitVec]
  simp only [BitVec.getLsbD_append, unpackSign, unpackExponent, unpackMantissa,
    BitVec.getLsbD_cast, BitVec.getLsbD_extractLsb]
  by_cases low : place < spec.mantissaBitsWithoutImplicit
  · simp [low]
    omega
  · by_cases middle : place - spec.mantissaBitsWithoutImplicit < spec.exponentBits
    · have same : spec.mantissaBitsWithoutImplicit +
          (place - spec.mantissaBitsWithoutImplicit) = place := by omega
      simp [low, middle, same]
      omega
    · have last : place = spec.mantissaBitsWithoutImplicit + spec.exponentBits := by omega
      have above := Nat.not_lt.2 (Nat.le_add_right spec.mantissaBitsWithoutImplicit spec.exponentBits)
      simp only [last, Nat.add_sub_cancel_left, Nat.lt_irrefl, above, if_false, Nat.sub_self,
        Nat.zero_add, Nat.lt_one_iff, decide_true, Bool.true_and, Nat.add_zero]

/-- Turning over the sign bit is negation. -/
theorem neg_unpack (sign : Sign) (exponent : BitVec spec.exponentBits)
    (mantissa : BitVec spec.mantissaBitsWithoutImplicit) :
    (unpack spec (packComponents spec sign exponent mantissa)).neg =
      unpack spec (packComponents spec (-sign) exponent mantissa) := by
  unfold unpack
  simp only [unpackSign_packComponents, unpackExponent_packComponents,
    unpackMantissa_packComponents, ofBitVec_toBitVec]
  split
  · split <;> rfl
  · split
    · split <;> rfl
    · rfl

end Components

/-! ### Taking a number apart and putting it together -/

theorem pack_subnormal (sign : Sign) (mantissa : BitVec 52) (nonzero : 0 < mantissa.toNat) :
    pack .binary64 (.finite sign mantissa.toNat (-1074) nonzero) =
      packComponents .binary64 sign 0#11 mantissa := by
  have short : ¬ mantissa.toNat.log2 + 1 = Format.binary64.mantissaBits := by
    intro full
    have full : mantissa.toNat.log2 + 1 = 53 := full
    have bound : mantissa.toNat.log2 < 52 := (Nat.log2_lt (Nat.ne_of_gt nonzero)).2 mantissa.isLt
    omega
  unfold pack
  simp only
  rw [if_neg (by decide), if_neg short, BitVec.ofNat_toNat, BitVec.setWidth_eq]

theorem pack_normal (sign : Sign) (exponent : BitVec 11) (mantissa : BitVec 52)
    (notTop : exponent ≠ -1#11) (nonzero : 0 < (1#1 ++ mantissa).toNat) :
    pack .binary64 (.finite sign (1#1 ++ mantissa).toNat (exponent.toNat - (1023 + 52)) nonzero) =
      packComponents .binary64 sign exponent mantissa := by
  have small := mantissa.isLt
  have value : (1#1 ++ mantissa).toNat = 2 ^ 52 + mantissa.toNat := by
    rw [BitVec.toNat_append, ← Nat.shiftLeft_add_eq_or_of_lt small]
    rfl
  have full : (1#1 ++ mantissa).toNat.log2 + 1 = Format.binary64.mantissaBits := by
    have low : 52 ≤ (1#1 ++ mantissa).toNat.log2 :=
      (Nat.le_log2 (Nat.ne_of_gt nonzero)).2 (by rw [value]; exact Nat.le_add_right _ _)
    have high : (1#1 ++ mantissa).toNat.log2 < 53 :=
      (Nat.log2_lt (Nat.ne_of_gt nonzero)).2 (by omega)
    change _ = 53
    omega
  have below : exponent.toNat < 2047 := by
    have bound := exponent.isLt
    have other : exponent.toNat ≠ 2047 := fun top => notTop (BitVec.eq_of_toNat_eq top)
    omega
  have biased : (((exponent.toNat : Int) - (1023 + 52)) + Format.binary64.exponentBias +
      Format.binary64.mantissaBitsWithoutImplicit).toNat = exponent.toNat := by
    change (((exponent.toNat : Int) - (1023 + 52)) + (1023 : Nat) + (52 : Nat)).toNat = _
    omega
  have implicit : BitVec.ofNat 52 (2 ^ 52 + mantissa.toNat) = mantissa := by
    refine BitVec.eq_of_toNat_eq ?_
    rw [BitVec.toNat_ofNat]
    omega
  have inRange : ¬ 2 ^ Format.binary64.exponentBits ≤ exponent.toNat + 1 := by
    change ¬ 2 ^ 11 ≤ _
    omega
  unfold pack
  simp only [biased]
  rw [if_neg inRange, if_pos full, BitVec.ofNat_toNat, BitVec.setWidth_eq, value]
  exact congrArg (packComponents .binary64 sign exponent) implicit

theorem pack_unpack {bits : BitVec Format.binary64.numBits} (valid : Format.binary64.Valid bits) :
    pack .binary64 (unpack .binary64 bits) = bits := by
  have whole := packComponents_unpack bits
  unfold unpack
  simp only
  split
  · next top =>
    split
    · next zero =>
      rw [top, zero] at whole
      exact whole
    · next nonzero => exact (valid.eq_packedNaN top nonzero).symm
  · next notTop =>
    split
    · next bottom =>
      split
      · next zero =>
        rw [bottom, zero] at whole
        exact whole
      · rw [bottom] at whole ⊢
        exact (pack_subnormal _ _ _).trans whole
    · exact (pack_normal _ _ _ notTop _).trans whole

/-! ### Negation of machine numbers -/

/-- The bits of a machine number. -/
def floatBits (x : Float) : BitVec Format.binary64.numBits := x.toBits.toBitVec

theorem floatBits_injective {x y : Float} (same : floatBits x = floatBits y) : x = y := by
  obtain ⟨⟨first, _⟩⟩ := x
  obtain ⟨⟨second, _⟩⟩ := y
  cases UInt64.eq_of_toBitVec_eq same
  rfl

/-- The machine numbers that are no numbers have the greatest exponent and some mantissa. -/
theorem isNaN_eq_false_iff (x : Float) :
    x.isNaN = false ↔
      (unpackExponent (floatBits x) = -1#_ → unpackMantissa (floatBits x) = 0#_) := by
  change (unpack .binary64 (floatBits x)).isNaN = false ↔ _
  unfold unpack
  simp only
  split
  · next top =>
    split
    · next zero => exact ⟨fun _ _ => zero, fun _ => rfl⟩
    · next nonzero => exact ⟨(nomatch ·), fun zero => absurd (zero top) nonzero⟩
  · next notTop =>
    refine ⟨fun _ top => absurd top notTop, fun _ => ?_⟩
    split
    · split <;> rfl
    · rfl

/-- The topmost bit is the sign. -/
theorem testBit_eq (x : Float) :
    x.toBits.toNat.testBit 63 = (unpackSign (floatBits x)).getLsbD 0 := by
  have last : (unpackSign (floatBits x)).getLsbD 0 = (floatBits x).getLsbD 63 := by
    simp [unpackSign]
  rw [last]
  rfl

section Negation

variable {x : Float} (number : x.isNaN = false)
include number

theorem floatBits_neg :
    floatBits (-x) = packComponents .binary64 (-Sign.ofBitVec (unpackSign (floatBits x)))
      (unpackExponent (floatBits x)) (unpackMantissa (floatBits x)) := by
  have whole := packComponents_unpack (floatBits x)
  have valid : Format.binary64.Valid (packComponents .binary64
      (-Sign.ofBitVec (unpackSign (floatBits x))) (unpackExponent (floatBits x))
      (unpackMantissa (floatBits x))) := by
    constructor
    rw [unpackExponent_packComponents, unpackMantissa_packComponents]
    intro top nonzero
    exact absurd ((isNaN_eq_false_iff x).1 number top) nonzero
  change pack .binary64 (unpack .binary64 (floatBits x)).neg = _
  rw [← whole, neg_unpack, whole, pack_unpack valid]

theorem unpackExponent_neg : unpackExponent (floatBits (-x)) = unpackExponent (floatBits x) := by
  rw [floatBits_neg number, unpackExponent_packComponents]

theorem unpackMantissa_neg : unpackMantissa (floatBits (-x)) = unpackMantissa (floatBits x) := by
  rw [floatBits_neg number, unpackMantissa_packComponents]

theorem unpackSign_neg :
    unpackSign (floatBits (-x)) = (-Sign.ofBitVec (unpackSign (floatBits x))).toBitVec := by
  rw [floatBits_neg number, unpackSign_packComponents]

theorem isNaN_neg : (-x).isNaN = false := by
  rw [isNaN_eq_false_iff, unpackExponent_neg number, unpackMantissa_neg number]
  exact (isNaN_eq_false_iff x).1 number

theorem neg_neg_float : -(-x) = x := by
  refine floatBits_injective ?_
  have twice : ∀ sign : Sign, -(-sign) = sign := by
    intro sign
    cases sign <;> rfl
  rw [floatBits_neg (isNaN_neg number), unpackExponent_neg number, unpackMantissa_neg number,
    unpackSign_neg number, ofBitVec_toBitVec, twice, packComponents_unpack]

/-- A number is finite if its negation is. -/
theorem isFinite_neg : (-x).isFinite = x.isFinite := by
  change (unpack .binary64 (floatBits (-x))).isFinite = (unpack .binary64 (floatBits x)).isFinite
  have whole := packComponents_unpack (floatBits x)
  have negated : unpack .binary64 (floatBits (-x)) = (unpack .binary64 (floatBits x)).neg := by
    rw [floatBits_neg number, ← neg_unpack, whole]
  rw [negated]
  cases unpack .binary64 (floatBits x) <;> rfl

/-- Negation turns the topmost bit over. -/
theorem testBit_neg : (-x).toBits.toNat.testBit 63 = !x.toBits.toNat.testBit 63 := by
  rw [testBit_eq, testBit_eq, unpackSign_neg number]
  generalize unpackSign (floatBits x) = sign
  revert sign
  decide

/-- The magnitude does not depend on the sign. -/
theorem Binary.ofFloat_neg : Binary.ofFloat (-x) = Binary.ofFloat x := by
  have fraction : ∀ y : Float,
      y.toBits.toNat % Nat.pow 2 52 = (unpackMantissa (floatBits y)).toNat := by
    intro y
    simp [unpackMantissa, floatBits, BitVec.extractLsb_toNat]
  have exponent : ∀ y : Float, y.toBits.toNat / Nat.pow 2 52 % Nat.pow 2 11 =
      (unpackExponent (floatBits y)).toNat := by
    intro y
    simp [unpackExponent, floatBits, BitVec.extractLsb_toNat, Nat.shiftRight_eq_div_pow]
  unfold Binary.ofFloat
  simp only [fraction, exponent, unpackExponent_neg number, unpackMantissa_neg number]

end Negation

/-! ### Finite numbers -/

namespace Double

section Finite

variable {x : Double} (finite : Scalar.isFinite x = true)
include finite

theorem isNaN_of_isFinite : x.value.isNaN = false := by
  have finite : (Float.Model.UnpackedFloat.unpack .binary64 (floatBits x.value)).isFinite = true :=
    finite
  change (Float.Model.UnpackedFloat.unpack .binary64 (floatBits x.value)).isNaN = false
  cases unpacked : Float.Model.UnpackedFloat.unpack .binary64 (floatBits x.value) with
  | notANumber => rw [unpacked] at finite; cases finite
  | infinity | zero | finite => rfl

/-- The sign that is kept beside a value is that of no number only. -/
theorem minusOfNaN_of_isFinite : x.minusOfNaN = false :=
  Bool.eq_false_iff.2 fun minus =>
    Bool.false_ne_true ((isNaN_of_isFinite finite).symm.trans (x.onlyNaN minus))

theorem isFinite_neg : Scalar.isFinite (-x) = true :=
  (SymbolicCalculus.isFinite_neg (isNaN_of_isFinite finite)).trans finite

end Finite

end Double

end SymbolicCalculus
