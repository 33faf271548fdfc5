/-
Module: SymbolicCalculus.Proofs.Double.Arithmetic
Layer: Proofs
Purpose: What arithmetic on machine numbers can lead to. An operation takes the numbers apart, computes
  and rounds, and puts the result together; what it computed is what the result stands for if it has the
  form of a machine number. With zero or one added, a finite number stays finite and is no zero with a
  minus sign.
Main exports: unpacked, Canonical, Canonical.unpack_pack, unpacked_neg, unpacked_add, Double.Plain,
  Double.plain_iff, Double.plain_add_zero, Double.add_zero_of_plain, Double.plain_add_one,
  the instance FlipsSign Double, Double.same_refl, Double.belowZero_of_same
-/
import SymbolicCalculus.Proofs.Double.Bits
import SymbolicCalculus.Proofs.Simplify.Termination

namespace SymbolicCalculus

open Float.Model (Format totalExponent)
open Float.Model.UnpackedFloat

/-! ### The forms of machine numbers -/

/-- The forms that machine numbers have when they are taken apart. A finite number has a mantissa of 53
    bits, or a shorter one with the least exponent. -/
inductive Canonical : Float.Model.UnpackedFloat → Prop where
  | notANumber : Canonical .notANumber
  | infinity (sign : Sign) : Canonical (.infinity sign)
  | zero (sign : Sign) : Canonical (.zero sign)
  | finite {sign : Sign} {mantissa : Nat} {exponent : Int} {pos : 0 < mantissa}
      (short : mantissa < 2 ^ 53) (low : -1074 ≤ exponent) (high : exponent ≤ 971)
      (full : 2 ^ 52 ≤ mantissa ∨ exponent = -1074) :
      Canonical (.finite sign mantissa exponent pos)

/-- The form of a machine number. -/
def unpacked (x : Float) : Float.Model.UnpackedFloat := unpack .binary64 (floatBits x)

theorem toNat_implicit (mantissa : BitVec 52) : (1#1 ++ mantissa).toNat = 2 ^ 52 + mantissa.toNat := by
  rw [BitVec.toNat_append, ← Nat.shiftLeft_add_eq_or_of_lt mantissa.isLt]
  rfl

/-- The numbers with the least exponent field. -/
theorem unpack_subnormal (sign : Sign) {mantissa : BitVec 52} (nonzero : mantissa ≠ 0#52)
    (pos : 0 < mantissa.toNat) :
    unpack .binary64 (packComponents .binary64 sign 0#11 mantissa) =
      .finite sign mantissa.toNat (-1074) pos := by
  unfold unpack
  simp only [unpackSign_packComponents, unpackExponent_packComponents,
    unpackMantissa_packComponents, ofBitVec_toBitVec]
  rw [if_neg (by decide), if_pos trivial, dif_neg nonzero]
  rfl

/-- The numbers with an exponent field between the least and the greatest. -/
theorem unpack_normal (sign : Sign) {exponent : BitVec 11} (mantissa : BitVec 52)
    (notTop : exponent ≠ -1#11) (notBottom : exponent ≠ 0#11) (pos : 0 < (1#1 ++ mantissa).toNat) :
    unpack .binary64 (packComponents .binary64 sign exponent mantissa) =
      .finite sign (1#1 ++ mantissa).toNat (exponent.toNat - (1023 + 52)) pos := by
  unfold unpack
  simp only [unpackSign_packComponents, unpackExponent_packComponents,
    unpackMantissa_packComponents, ofBitVec_toBitVec]
  rw [if_neg notTop, if_neg notBottom]
  rfl

theorem canonical_unpack (bits : BitVec Format.binary64.numBits) : Canonical (unpack .binary64 bits) := by
  rw [← packComponents_unpack bits]
  generalize Sign.ofBitVec (unpackSign bits) = sign
  generalize unpackExponent bits = exponent
  generalize unpackMantissa bits = mantissa
  change BitVec 11 at exponent
  change BitVec 52 at mantissa
  have narrow := mantissa.isLt
  by_cases top : exponent = -1#11
  · unfold unpack
    simp only [unpackExponent_packComponents]
    rw [if_pos top]
    split
    · exact .infinity _
    · exact .notANumber
  · by_cases bottom : exponent = 0#11
    · subst bottom
      by_cases zero : mantissa = 0#52
      · unfold unpack
        simp only [unpackExponent_packComponents, unpackMantissa_packComponents]
        rw [if_neg top, if_pos trivial, dif_pos zero]
        exact .zero _
      · have pos : 0 < mantissa.toNat :=
          Nat.pos_of_ne_zero fun none => zero (BitVec.eq_of_toNat_eq none)
        rw [unpack_subnormal sign zero pos]
        exact .finite (by omega) (by omega) (by omega) (.inr rfl)
    · have value := toNat_implicit mantissa
      have below : exponent.toNat < 2047 := by
        have bound := exponent.isLt
        have other : exponent.toNat ≠ 2047 := fun top_ => top (BitVec.eq_of_toNat_eq top_)
        omega
      have above : exponent.toNat ≠ 0 := fun none => bottom (BitVec.eq_of_toNat_eq none)
      rw [unpack_normal sign mantissa top bottom (by omega)]
      exact .finite (by omega) (by omega) (by omega) (.inl (by omega))

/-- Every form is that of some bits. -/
theorem Canonical.exists_unpack {form : Float.Model.UnpackedFloat} (canonical : Canonical form) :
    ∃ bits, Format.binary64.Valid bits ∧ unpack .binary64 bits = form := by
  cases canonical with
  | notANumber => exact ⟨packedNaN .binary64, ⟨fun _ _ => rfl⟩, rfl⟩
  | infinity sign =>
    refine ⟨packedInfinity .binary64 sign, valid_pack (f := .infinity sign), ?_⟩
    cases sign <;> rfl
  | zero sign =>
    refine ⟨packedZero .binary64 sign, valid_pack (f := .zero sign), ?_⟩
    cases sign <;> rfl
  | @finite sign mantissa exponent pos short low high full =>
    have valid (field : BitVec 11) (rest : BitVec 52) (notTop : field ≠ -1#11) :
        Format.binary64.Valid (packComponents .binary64 sign field rest) := by
      constructor
      rw [unpackExponent_packComponents]
      exact fun top => absurd top notTop
    by_cases normal : 2 ^ 52 ≤ mantissa
    · have place : (BitVec.ofNat 11 (exponent + 1075).toNat).toNat = (exponent + 1075).toNat := by
        rw [BitVec.toNat_ofNat]
        omega
      have rest : (1#1 ++ BitVec.ofNat 52 (mantissa - 2 ^ 52)).toNat = mantissa := by
        rw [toNat_implicit, BitVec.toNat_ofNat]
        omega
      have notTop : BitVec.ofNat 11 (exponent + 1075).toNat ≠ -1#11 := by
        intro top
        rw [top] at place
        change 2047 = _ at place
        omega
      have notBottom : BitVec.ofNat 11 (exponent + 1075).toNat ≠ 0#11 := by
        intro bottom
        rw [bottom] at place
        change 0 = _ at place
        omega
      refine ⟨_, valid _ (BitVec.ofNat 52 (mantissa - 2 ^ 52)) notTop, ?_⟩
      rw [unpack_normal sign _ notTop notBottom (by omega)]
      simp only [rest, place]
      congr 1
      omega
    · have rest : (BitVec.ofNat 52 mantissa).toNat = mantissa := by
        rw [BitVec.toNat_ofNat]
        omega
      have nonzero : BitVec.ofNat 52 mantissa ≠ 0#52 := by
        intro zero
        rw [zero] at rest
        change 0 = _ at rest
        omega
      refine ⟨_, valid 0#11 (BitVec.ofNat 52 mantissa) (by decide), ?_⟩
      rw [unpack_subnormal sign nonzero (by omega)]
      simp only [rest, full.resolve_left normal]

/-- What has the form of a machine number is put together and taken apart without loss. -/
theorem Canonical.unpack_pack {form : Float.Model.UnpackedFloat} (canonical : Canonical form) :
    unpack .binary64 (pack .binary64 form) = form := by
  obtain ⟨bits, valid, rfl⟩ := canonical.exists_unpack
  rw [SymbolicCalculus.pack_unpack valid]

/-! ### Rounding -/

/-- The mantissa without its last places, with what rounding has to know of them. -/
def withoutPlaces (mantissa places : Nat) : ExtendedMantissa :=
  (⟨mantissa, false, false⟩ : ExtendedMantissa) >>> places

/-- The mantissa without its last places, rounded. -/
def roundedPlaces (mantissa places : Nat) : Nat := (withoutPlaces mantissa places).roundedMantissa

theorem withoutPlaces_succ (mantissa places : Nat) :
    withoutPlaces mantissa (places + 1) = (withoutPlaces mantissa places).shiftRightOne := rfl

theorem mantissa_withoutPlaces (mantissa places : Nat) :
    (withoutPlaces mantissa places).mantissa = mantissa / 2 ^ places := by
  induction places with
  | zero => exact (Nat.div_one _).symm
  | succ places ih =>
    change (withoutPlaces mantissa places).mantissa / 2 = _
    rw [ih, Nat.div_div_eq_div_mul, Nat.pow_succ]

/-- A mantissa is rounded up by one at most, and only if the place after it is set. -/
theorem roundedMantissa_eq (em : ExtendedMantissa) :
    em.roundedMantissa = em.mantissa ∨
      em.roundedMantissa = em.mantissa + 1 ∧ em.roundBit = true := by
  obtain ⟨mantissa, roundBit, stickyBit⟩ := em
  cases roundBit with
  | false => cases stickyBit <;> exact .inl rfl
  | true =>
    cases stickyBit with
    | true => exact .inr ⟨rfl, rfl⟩
    | false =>
      change mantissa + mantissa % 2 = mantissa ∨ mantissa + mantissa % 2 = mantissa + 1 ∧ true = true
      rcases Nat.mod_two_eq_zero_or_one mantissa with even | odd
      · exact .inl (by omega)
      · exact .inr ⟨by omega, rfl⟩

theorem roundedPlaces_bounds (mantissa places : Nat) :
    mantissa / 2 ^ places ≤ roundedPlaces mantissa places ∧
      roundedPlaces mantissa places ≤ mantissa / 2 ^ places + 1 := by
  unfold roundedPlaces
  rcases roundedMantissa_eq (withoutPlaces mantissa places) with down | ⟨up, -⟩
  · rw [down, mantissa_withoutPlaces]
    exact ⟨Nat.le_refl _, Nat.le_succ _⟩
  · rw [up, mantissa_withoutPlaces]
    exact ⟨Nat.le_succ _, Nat.le_refl _⟩

/-- Less than half a place below the next power of two, nothing is rounded up to it. -/
theorem roundedPlaces_lt {mantissa places : Nat} (small : 2 * mantissa < (2 ^ 54 - 1) * 2 ^ places) :
    roundedPlaces mantissa places < 2 ^ 53 := by
  have quotient : mantissa / 2 ^ places < 2 ^ 53 := by
    rw [Nat.div_lt_iff_lt_mul (Nat.two_pow_pos places)]
    omega
  unfold roundedPlaces
  rcases roundedMantissa_eq (withoutPlaces mantissa places) with down | ⟨up, half⟩
  · rw [down, mantissa_withoutPlaces]
    exact quotient
  · cases places with
    | zero => cases half
    | succ places =>
      rw [withoutPlaces_succ] at half
      have odd : (withoutPlaces mantissa places).mantissa % 2 ≠ 0 := bne_iff_ne.1 half
      rw [mantissa_withoutPlaces] at odd
      have next : mantissa / 2 ^ places < 2 ^ 54 - 1 := by
        rw [Nat.div_lt_iff_lt_mul (Nat.two_pow_pos places)]
        rw [Nat.pow_succ] at small
        omega
      have halved : mantissa / 2 ^ (places + 1) = mantissa / 2 ^ places / 2 := by
        rw [Nat.div_div_eq_div_mul, Nat.pow_succ]
      rw [up, mantissa_withoutPlaces, halved]
      omega

/-- The exponent that rounding leads to: so that there are 53 bits, if the least exponent allows it. -/
theorem targetExponent_eq (mantissa : Nat) (exponent : Int) :
    Format.binary64.targetExponent (totalExponent mantissa exponent) =
      max (mantissa.log2 + exponent - 52) (-1074) := by
  have bits : (Format.binary64.mantissaBits : Int) = 53 := rfl
  have least : Format.binary64.minExponent = -1074 := rfl
  rw [Format.targetExponent, totalExponent, bits, least]
  omega

theorem shiftToTargetExponent_eq {mantissa places : Nat} {exponent : Int}
    (amount : (max (mantissa.log2 + exponent - 52) (-1074) - exponent).toNat = places) :
    shiftToTargetExponent .binary64 mantissa exponent .exact =
      (withoutPlaces mantissa places, exponent + places) := by
  unfold shiftToTargetExponent
  rw [targetExponent_eq]
  unfold shiftToExponent
  simp only [amount]
  rfl

/-- Rounding takes off the places that are too many, and one more if rounding up has made one. -/
theorem roundWithAccuracy_eq {sign : Sign} {mantissa places : Nat} {exponent : Int}
    (amount : (max (mantissa.log2 + exponent - 52) (-1074) - exponent).toNat = places)
    (pos : 0 < roundedPlaces mantissa places) :
    roundWithAccuracy .binary64 sign mantissa exponent .exact =
      if roundedPlaces mantissa places < 2 ^ 53 then
        .finite sign (roundedPlaces mantissa places) (exponent + places) pos
      else .finite sign (2 ^ 52) (exponent + places + 1) (by decide) := by
  have quotient : mantissa / 2 ^ places < 2 ^ 53 := by
    rw [Nat.div_lt_iff_lt_mul (Nat.two_pow_pos places), ← Nat.pow_add]
    refine Nat.lt_of_lt_of_le Nat.lt_log2_self (Nat.pow_le_pow_right (by decide) ?_)
    omega
  have bounds := roundedPlaces_bounds mantissa places
  have least : -1074 ≤ exponent + places := by omega
  have first := shiftToTargetExponent_eq amount
  have rounded : (withoutPlaces mantissa places).roundedMantissa = roundedPlaces mantissa places := rfl
  unfold roundWithAccuracy
  rw [first]
  simp only [rounded]
  by_cases short : roundedPlaces mantissa places < 2 ^ 53
  · have bits := (Nat.log2_lt (Nat.ne_of_gt pos)).2 short
    have again : shiftToTargetExponent .binary64 (roundedPlaces mantissa places)
        (exponent + places) .exact =
          (withoutPlaces (roundedPlaces mantissa places) 0, exponent + places + (0 : Nat)) :=
      shiftToTargetExponent_eq (by omega)
    rw [if_pos short]
    simp only [again]
    change (if none : roundedPlaces mantissa places = 0 then _ else _) = _
    rw [dif_neg (Nat.ne_of_gt pos)]
    simp only [Int.natCast_zero, Int.add_zero]
    rfl
  · -- rounding up has led to one bit too many
    have power : roundedPlaces mantissa places = 2 ^ 53 := by omega
    have again : shiftToTargetExponent .binary64 (2 ^ 53) (exponent + places) .exact =
        (withoutPlaces (2 ^ 53) 1, exponent + places + (1 : Nat)) :=
      shiftToTargetExponent_eq (by rw [Nat.log2_two_pow]; omega)
    rw [if_neg short]
    simp only [power, again]
    rfl

/-- A short mantissa is left as it is. -/
theorem roundWithAccuracy_of_short {sign : Sign} {mantissa : Nat} {exponent : Int} (pos : 0 < mantissa)
    (short : mantissa < 2 ^ 53) (low : -1074 ≤ exponent) :
    roundWithAccuracy .binary64 sign mantissa exponent .exact = .finite sign mantissa exponent pos := by
  have bits := (Nat.log2_lt (Nat.ne_of_gt pos)).2 short
  have amount : (max (mantissa.log2 + exponent - 52) (-1074) - exponent).toNat = 0 := by omega
  have whole : 0 < roundedPlaces mantissa 0 := pos
  have short : roundedPlaces mantissa 0 < 2 ^ 53 := short
  rw [roundWithAccuracy_eq amount whole, if_pos short]
  simp only [Int.natCast_zero, Int.add_zero]
  rfl

theorem log2_shiftLeft {mantissa : Nat} (pos : 0 < mantissa) (places : Nat) :
    (mantissa <<< places).log2 = mantissa.log2 + places := by
  induction places with
  | zero => rfl
  | succ places ih =>
    have shifted : mantissa <<< places ≠ 0 := by
      rw [Nat.shiftLeft_eq]
      exact Nat.ne_of_gt (Nat.mul_pos pos (Nat.two_pow_pos places))
    rw [Nat.shiftLeft_succ, Nat.log2_two_mul shifted, ih]
    rfl

/-- Where there is room for the whole mantissa, nothing is rounded. -/
theorem round_of_room {sign : Sign} {mantissa room : Nat} {exponent : Int} (pos : 0 < mantissa)
    (low : -1074 ≤ exponent) (short : mantissa.log2 + room < 53)
    (shift : (exponent - max (mantissa.log2 + exponent - 52) (-1074)).toNat = room) :
    ∃ pos', round .binary64 sign mantissa exponent =
      .finite sign (mantissa <<< room) (exponent - room) pos' := by
  have length := log2_shiftLeft pos room
  have pos' : 0 < mantissa <<< room := by
    rw [Nat.shiftLeft_eq]
    exact Nat.mul_pos pos (Nat.two_pow_pos room)
  refine ⟨pos', ?_⟩
  unfold Float.Model.UnpackedFloat.round
  simp only [targetExponent_eq, decreaseExponent, shift]
  exact roundWithAccuracy_of_short pos' ((Nat.log2_lt (Nat.ne_of_gt pos')).1 (by omega)) (by omega)

/-- Where there are more than 53 bits, the last places are taken off. -/
theorem round_of_long {sign : Sign} {mantissa places : Nat} {exponent : Int}
    (long : mantissa.log2 = 52 + places) (low : -1074 ≤ exponent + places)
    (pos : 0 < roundedPlaces mantissa places) :
    round .binary64 sign mantissa exponent =
      if roundedPlaces mantissa places < 2 ^ 53 then
        .finite sign (roundedPlaces mantissa places) (exponent + places) pos
      else .finite sign (2 ^ 52) (exponent + places + 1) (by decide) := by
  have shift : (exponent - max (mantissa.log2 + exponent - 52) (-1074)).toNat = 0 := by omega
  unfold Float.Model.UnpackedFloat.round
  simp only [targetExponent_eq, decreaseExponent, shift, Nat.shiftLeft_zero, Int.natCast_zero,
    Int.sub_zero]
  exact roundWithAccuracy_eq (by omega) pos

/-- A number that is not zero, not finer than the finest machine numbers, and less than half a place
    above the greatest is rounded to a finite number that is not zero. -/
theorem exists_round {sign : Sign} {mantissa places : Nat} {exponent : Int} (pos : 0 < mantissa)
    (low : -1074 ≤ exponent) (top : exponent + places = 971)
    (small : 2 * mantissa < (2 ^ 54 - 1) * 2 ^ places) :
    ∃ mantissa' exponent' pos', round .binary64 sign mantissa exponent =
        .finite sign mantissa' exponent' pos' ∧
      Canonical (.finite sign mantissa' exponent' pos') := by
  have nonzero := Nat.ne_of_gt pos
  have bits : mantissa.log2 < 53 + places := by
    rw [Nat.log2_lt nonzero, Nat.pow_add]
    omega
  by_cases few : mantissa.log2 ≤ 52
  · obtain ⟨room, shift⟩ : ∃ room : Nat,
        (exponent - max (mantissa.log2 + exponent - 52) (-1074)).toNat = room := ⟨_, rfl⟩
    obtain ⟨pos', rounding⟩ : ∃ pos', round .binary64 sign mantissa exponent =
        .finite sign (mantissa <<< room) (exponent - room) pos' :=
      round_of_room pos low (by omega) shift
    have length := log2_shiftLeft pos room
    have short : mantissa <<< room < 2 ^ 53 := (Nat.log2_lt (Nat.ne_of_gt pos')).1 (by omega)
    refine ⟨_, _, pos', rounding, .finite short (by omega) (by omega) ?_⟩
    rw [← Nat.le_log2 (Nat.ne_of_gt pos')]
    omega
  · obtain ⟨taken, long⟩ : ∃ taken, mantissa.log2 = 52 + taken := ⟨mantissa.log2 - 52, by omega⟩
    have full : 2 ^ 52 ≤ mantissa / 2 ^ taken := by
      rw [Nat.le_div_iff_mul_le (Nat.two_pow_pos taken), ← Nat.pow_add, ← long]
      exact Nat.log2_self_le nonzero
    have bounds := roundedPlaces_bounds mantissa taken
    have positive : 0 < roundedPlaces mantissa taken := by omega
    have rounding : round .binary64 sign mantissa exponent = _ := round_of_long long (by omega) positive
    by_cases short : roundedPlaces mantissa taken < 2 ^ 53
    · rw [if_pos short] at rounding
      exact ⟨_, _, _, rounding, .finite short (by omega) (by omega) (.inl (by omega))⟩
    · -- the greatest exponent leaves less than half a place
      rw [if_neg short] at rounding
      have below : taken ≠ places := by
        rintro rfl
        exact short (roundedPlaces_lt small)
      exact ⟨_, _, _, rounding, .finite (by decide) (by omega) (by omega) (.inl (Nat.le_refl _))⟩

/-! ### Sums -/

/-- The form of a finite number other than the zero with a minus sign. -/
def IsPlainForm : Float.Model.UnpackedFloat → Prop
  | .zero .positive => True
  | .finite .. => True
  | _ => False

/-- A sum that is less than half a place above the greatest machine number is finite. It is no zero with a
    minus sign, since a sum of zero is taken as positive and no other is rounded to zero. -/
theorem isPlainForm_normalize {mantissa exponent : Int} {places : Nat} (low : -1074 ≤ exponent)
    (top : exponent + places = 971) (small : 2 * mantissa.natAbs < (2 ^ 54 - 1) * 2 ^ places) :
    Canonical (normalize .binary64 mantissa exponent .positive) ∧
      IsPlainForm (normalize .binary64 mantissa exponent .positive) := by
  have rounded {magnitude : Nat} (sign : Sign) (pos : 0 < magnitude)
      (same : magnitude = mantissa.natAbs) : Canonical (round .binary64 sign magnitude exponent) ∧
        IsPlainForm (round .binary64 sign magnitude exponent) := by
    obtain ⟨mantissa', exponent', pos', rounding, canonical⟩ : ∃ mantissa' exponent' pos',
        round .binary64 sign magnitude exponent = .finite sign mantissa' exponent' pos' ∧
          Canonical (.finite sign mantissa' exponent' pos') :=
      exists_round pos low top (same ▸ small)
    rw [rounding]
    exact ⟨canonical, trivial⟩
  unfold Float.Model.UnpackedFloat.normalize
  split
  · next below =>
    rw [Int.compare_eq_lt] at below
    exact rounded .negative (by omega) (by omega)
  · exact ⟨.zero _, trivial⟩
  · next above =>
    rw [Int.compare_eq_gt] at above
    exact rounded .positive (by omega) (by omega)

/-- The form of the number one. -/
def one : Float.Model.UnpackedFloat := .finite .positive (2 ^ 52) (-52) (by decide)

theorem natAbs_apply (sign : Sign) (magnitude : Nat) : (sign.apply magnitude).natAbs = magnitude := by
  cases sign with
  | negative => exact Int.natAbs_neg _
  | positive => rfl

/-- One is far less than half a place of the greatest machine number. -/
theorem isPlainForm_add_one {form : Float.Model.UnpackedFloat} (canonical : Canonical form)
    (finite : form.isFinite = true) :
    Canonical (add .binary64 form one) ∧ IsPlainForm (add .binary64 form one) := by
  cases canonical with
  | notANumber => cases finite
  | infinity sign => cases finite
  | zero sign => exact ⟨.finite (by decide) (by decide) (by decide) (.inl (by decide)), trivial⟩
  | @finite sign mantissa exponent pos short low high full =>
    obtain ⟨least, is_least⟩ : ∃ least, min exponent (-52) = least := ⟨_, rfl⟩
    obtain ⟨left, is_left⟩ : ∃ left : Nat, (exponent - least).toNat = left := ⟨_, rfl⟩
    obtain ⟨right, is_right⟩ : ∃ right : Nat, (-52 - least).toNat = right := ⟨_, rfl⟩
    unfold add one
    simp only [decreaseExponent, is_least, is_left, is_right]
    have top : least + (right + 1023 : Nat) = 971 := by omega
    refine isPlainForm_normalize (by omega) top ?_
    have sum : (sign.apply (mantissa <<< left : Nat) +
        Sign.positive.apply (2 ^ 52 <<< right : Nat)).natAbs ≤
          mantissa * 2 ^ left + 2 ^ 52 * 2 ^ right := by
      rw [← Nat.shiftLeft_eq, ← Nat.shiftLeft_eq]
      refine Nat.le_trans (Int.natAbs_add_le _ _) (Nat.le_of_eq ?_)
      rw [natAbs_apply, natAbs_apply]
    have first : mantissa * 2 ^ left ≤ (2 ^ 53 - 1) * 2 ^ (right + 1023) :=
      Nat.mul_le_mul (by omega) (Nat.pow_le_pow_right (by decide) (by omega))
    have second : 2 ^ 53 * 2 ^ right < 2 ^ (right + 1023) := by
      rw [← Nat.pow_add]
      exact Nat.pow_lt_pow_right (by decide) (by omega)
    generalize 2 ^ (right + 1023) = greatest at first second ⊢
    omega

/-! ### Operations by their forms -/

theorem canonical_unpacked (x : Float) : Canonical (unpacked x) := canonical_unpack (floatBits x)

theorem unpacked_injective {x y : Float} (same : unpacked x = unpacked y) : x = y := by
  have whole (z : Float) : pack .binary64 (unpacked z) = floatBits z := pack_unpack z.toModel.valid
  refine floatBits_injective ?_
  rw [← whole x, ← whole y, same]

theorem unpacked_neg {x : Float} (number : x.isNaN = false) : unpacked (-x) = (unpacked x).neg := by
  unfold unpacked
  rw [floatBits_neg number, ← neg_unpack, packComponents_unpack]

theorem unpacked_add {x y : Float} (canonical : Canonical (add .binary64 (unpacked x) (unpacked y))) :
    unpacked (x + y) = add .binary64 (unpacked x) (unpacked y) := canonical.unpack_pack

theorem unpacked_zero : unpacked (Nat.toFloat 0) = .zero .positive := rfl

theorem unpacked_one : unpacked (Nat.toFloat 1) = one := rfl

theorem unpacked_minusZero : unpacked (-Nat.toFloat 0) = .zero .negative := rfl

/-- Adding zero takes the sign of a zero away and changes nothing else. -/
theorem isPlainForm_add_zero {form : Float.Model.UnpackedFloat} (canonical : Canonical form)
    (finite : form.isFinite = true) :
    Canonical (add .binary64 form (.zero .positive)) ∧
      IsPlainForm (add .binary64 form (.zero .positive)) := by
  cases form with
  | notANumber | infinity => cases finite
  | zero sign => cases sign <;> exact ⟨.zero _, trivial⟩
  | finite => exact ⟨canonical, trivial⟩

/-- Zero added to the form of a finite number is nothing, if it is not the zero with a minus sign. -/
theorem add_zero_of_isPlainForm {form : Float.Model.UnpackedFloat} (plain : IsPlainForm form) :
    add .binary64 form (.zero .positive) = form := by
  cases form with
  | notANumber | infinity => cases plain
  | finite => rfl
  | zero sign =>
    cases sign with
    | positive => rfl
    | negative => cases plain

/-- The negative of a form below zero is above zero, and stays so if zero is added. -/
theorem above_neg_add_zero {form : Float.Model.UnpackedFloat} (canonical : Canonical form)
    (below : form.compare (.zero .positive) = some .lt) :
    Canonical (add .binary64 form.neg (.zero .positive)) ∧
      (add .binary64 form.neg (.zero .positive)).compare (.zero .positive) = some .gt := by
  cases canonical with
  | notANumber => cases below
  | zero sign => cases sign <;> cases below
  | infinity sign =>
    cases sign with
    | positive => cases below
    | negative => exact ⟨.infinity _, rfl⟩
  | @finite sign _ _ _ short low high full =>
    cases sign with
    | positive => cases below
    | negative => exact ⟨.finite short low high full, rfl⟩

/-! ### Equal numbers -/

/-- A form other than that of no number is equal to itself. -/
theorem compare_self (form : Float.Model.UnpackedFloat) :
    form.compare form = some .eq ∨ form = .notANumber := by
  cases form with
  | notANumber => exact .inr rfl
  | zero sign => exact .inl rfl
  | infinity sign => cases sign <;> exact .inl rfl
  | finite sign mantissa exponent pos =>
    refine .inl ?_
    cases sign <;> simp [Float.Model.UnpackedFloat.compare]

/-- Equal forms lie on the same side of zero. -/
theorem compare_zero_of_eq {first second : Float.Model.UnpackedFloat}
    (equal : first.compare second = some .eq) :
    first.compare (.zero .positive) = second.compare (.zero .positive) := by
  cases first with
  | notANumber => cases equal
  | zero sign =>
    cases second with
    | notANumber => cases equal
    | zero sign' => rfl
    | infinity sign' => cases sign' <;> cases equal
    | finite sign' => cases sign' <;> cases equal
  | infinity sign =>
    cases second with
    | notANumber => cases sign <;> cases equal
    | zero | finite => cases sign <;> cases equal
    | infinity sign' => cases sign <;> cases sign' <;> first | rfl | cases equal
  | finite sign =>
    cases second with
    | notANumber | zero => cases sign <;> cases equal
    | infinity sign' => cases sign <;> cases sign' <;> cases equal
    | finite sign' => cases sign <;> cases sign' <;> first | rfl | cases equal

namespace Double

/-- The number is finite and not the zero with a minus sign. -/
def Plain (x : Double) : Prop := Scalar.isFinite x = true ∧ x ≠ -Scalar.ofNat 0

instance (x : Double) : Decidable (Plain x) := inferInstanceAs (Decidable (_ ∧ _))

variable {x : Double}

theorem plain_iff : Plain x ↔ IsPlainForm (unpacked x.value) := by
  constructor
  · rintro ⟨finite, notMinusZero⟩
    have finiteForm : (unpacked x.value).isFinite = true := finite
    cases form : unpacked x.value with
    | notANumber | infinity => rw [form] at finiteForm; cases finiteForm
    | finite => trivial
    | zero sign =>
      cases sign with
      | positive => trivial
      | negative =>
        have value : x.value = -Nat.toFloat 0 := unpacked_injective (form.trans unpacked_minusZero.symm)
        exact absurd (Double.ext value (minusOfNaN_of_isFinite finite)) notMinusZero
  · intro plain
    constructor
    · change (unpacked x.value).isFinite = true
      cases form : unpacked x.value with
      | notANumber | infinity => rw [form] at plain; cases plain
      | zero | finite => rfl
    · rintro rfl
      exact plain

/-- A finite number with zero added. -/
theorem plain_add_zero (finite : Scalar.isFinite x = true) : Plain (x + Scalar.ofNat 0) := by
  obtain ⟨canonical, plain⟩ := isPlainForm_add_zero (canonical_unpacked x.value) finite
  rw [← unpacked_zero] at canonical plain
  exact plain_iff.2 ((unpacked_add canonical).symm ▸ plain)

/-- Adding zero changes no other number than the zero with a minus sign. -/
theorem add_zero_of_plain (plain : Plain x) : x + Scalar.ofNat 0 = x := by
  have same := add_zero_of_isPlainForm (plain_iff.1 plain)
  have canonical : Canonical (add .binary64 (unpacked x.value) (unpacked (Nat.toFloat 0))) := by
    rw [unpacked_zero, same]
    exact canonical_unpacked x.value
  have value : (x + Scalar.ofNat 0).value = x.value :=
    unpacked_injective ((unpacked_add canonical).trans same)
  refine Double.ext value ?_
  rw [minusOfNaN_of_isFinite plain.1, minusOfNaN_of_isFinite (plain_add_zero plain.1).1]

/-- A finite number with one added. -/
theorem plain_add_one (finite : Scalar.isFinite x = true) : Plain (x + Scalar.ofNat 1) := by
  obtain ⟨canonical, plain⟩ := isPlainForm_add_one (canonical_unpacked x.value) finite
  rw [← unpacked_one] at canonical plain
  exact plain_iff.2 ((unpacked_add canonical).symm ▸ plain)

theorem plain_of_ne_zero (finite : Scalar.isFinite x = true) (nonzero : (x == Scalar.ofNat 0) = false) :
    Plain x := by
  refine ⟨finite, ?_⟩
  rintro rfl
  exact absurd nonzero (by decide +kernel)

theorem belowZero_eq (x : Double) :
    Scalar.belowZero x = ((unpacked x.value).compare (.zero .positive) == some .lt) := by
  change decide (x.value < 0) = _
  rw [Bool.eq_iff_iff, decide_eq_true_eq]
  change (decide (x.value.toModel < _) = true) ↔ _
  rw [decide_eq_true_eq]
  exact Iff.rfl

/-- The negative of a number below zero is above zero, and stays so if zero is added. -/
instance : FlipsSign Double where
  not_belowZero x below := by
    rw [belowZero_eq, beq_iff_eq] at below
    obtain ⟨canonical, above⟩ := above_neg_add_zero (canonical_unpacked x.value) below
    have number : x.value.isNaN = false := by
      change (unpacked x.value).isNaN = false
      cases form : unpacked x.value with
      | notANumber => rw [form] at below; cases below
      | infinity | zero | finite => rfl
    rw [← unpacked_neg number] at canonical above
    have sum : unpacked (-x + Scalar.ofNat 0).value =
        add .binary64 (unpacked (-x.value)) (.zero .positive) := unpacked_add canonical
    rw [belowZero_eq, sum, above]
    rfl

/-! ### Numbers as parts of a tree -/

theorem beq_eq (a b : Double) :
    (a == b) = ((unpacked a.value).compare (unpacked b.value) == some .eq) := rfl

theorem same_refl (x : Double) : Scalar.same x x = true := by
  rw [Scalar.same, beq_eq]
  rcases compare_self (unpacked x.value) with equal | notANumber
  · rw [equal]
    rfl
  · have isNaN : Scalar.isNaN x = (unpacked x.value).isNaN := rfl
    rw [isNaN, notANumber]
    rfl

/-- Numbers that are the same part of a tree lie on the same side of zero. -/
theorem belowZero_of_same {a b : Double} (same : Scalar.same a b = true) :
    Scalar.belowZero a = Scalar.belowZero b := by
  rw [belowZero_eq, belowZero_eq]
  rcases Bool.or_eq_true_iff.1 same with equal | notNumbers
  · rw [beq_eq, beq_iff_eq] at equal
    rw [compare_zero_of_eq equal]
  · obtain ⟨first, second⟩ := Bool.and_eq_true_iff.1 notNumbers
    have noForm {x : Double} (isNaN : Scalar.isNaN x = true) : unpacked x.value = .notANumber := by
      have isNaN : (unpacked x.value).isNaN = true := isNaN
      cases form : unpacked x.value with
      | notANumber => rfl
      | zero | infinity | finite => rw [form] at isNaN; cases isNaN
    rw [noForm first, noForm second]

end Double

end SymbolicCalculus
