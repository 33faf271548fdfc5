/-
Module: SymbolicCalculus.Proofs.Simplify.Meaning
Layer: Proofs
Purpose: Simplification preserves what an expression means over exact numbers. Each rule is sound where the
  expression it is applied to is defined, although most of the identities fail elsewhere: the conditions
  that an identity needs are those under which its left side exists. Soundness then passes through the
  nodes of a tree to a pass, and from one pass to all of them. The unit of angles matters to one rule only:
  a function of a number is folded with angles in radians.
Main exports: Rule.Sound, Rule.FoldsIn, Rule.sound_of_foldsIn, Rule.sound, Expr.visited, Expr.FoldsIn,
  Expr.means_pass, Expr.means_settle_of_foldsIn, Expr.Agrees, Expr.simplify_agrees
-/
import SymbolicCalculus.Proofs.Exact.Meaning
import SymbolicCalculus.Proofs.Simplify.Rest

namespace SymbolicCalculus

open Exact SymbolicCalculus.Expr

/-! ### What the conditions of the rules say -/

namespace Expr

theorem eq_of_isNumber {value : Exact} {e : Expr Exact} (fits : e.isNumber value = true) :
    e = .number value := by
  cases e with
  | number a =>
    rcases (beq_iff _ _).1 fits with ⟨x, left, right⟩
    rw [left, right]
  | symbol | neg | apply | binary | call => cases fits

/-- An expression that is a whole number means that number. -/
theorem Means.eq_of_isNat {context : Context Exact} {e : Expr Exact} {n : ℕ} {x : ℝ}
    (means : e.Means context x) (fits : e.isNat n = true) : x = n := by
  rw [eq_of_isNumber fits, means_number] at means
  exact (Exact.real.inj means).symm

mutual

/-- Trees that are the same are equal. -/
theorem eq_of_same : ∀ {a b : Expr Exact}, a.same b = true → a = b
  | .number _, .number _, fits => congrArg number (Exact.eq_of_same fits)
  | .symbol _, .symbol _, fits => congrArg symbol (eq_of_beq fits)
  | .neg _, .neg _, fits => congrArg neg (eq_of_same fits)
  | .apply _ _, .apply _ _, fits => by
      rcases Bool.and_eq_true_iff.1 fits with ⟨functions, operands⟩
      rw [eq_of_beq functions, eq_of_same operands]
  | .binary _ _ _, .binary _ _ _, fits => by
      rcases Bool.and_eq_true_iff.1 fits with ⟨front, right⟩
      rcases Bool.and_eq_true_iff.1 front with ⟨ops, left⟩
      rw [eq_of_beq ops, eq_of_same left, eq_of_same right]
  | .call _ _, .call _ _, fits => by
      rcases Bool.and_eq_true_iff.1 fits with ⟨names, arguments⟩
      rw [eq_of_beq names, eq_of_sameAll arguments]

theorem eq_of_sameAll : ∀ {as bs : List (Expr Exact)}, sameAll as bs = true → as = bs
  | [], [], _ => rfl
  | _ :: _, _ :: _, fits => by
      rcases Bool.and_eq_true_iff.1 fits with ⟨first, others⟩
      rw [eq_of_same first, eq_of_sameAll others]

end

end Expr

namespace Rule

variable {context : Context Exact} {x y : ℝ} {a b e result : Expr Exact}

/-- Wherever the expression is defined, the result of the rule means the same. -/
def Sound (rule : Rule) : Prop :=
  ∀ {context : Context Exact} {e result : Expr Exact} {x : ℝ}, context.unit = .radians →
    rule.result? e = some result → e.Means context x → result.Means context x

/-- The same with angles in any unit. -/
def SoundInAnyUnit (rule : Rule) : Prop :=
  ∀ {context : Context Exact} {e result : Expr Exact} {x : ℝ},
    rule.result? e = some result → e.Means context x → result.Means context x

/-- If the expression is a function of a number and would be folded, the function has the same value there
    with angles in the unit. -/
def FoldsIn (unit : AngleUnit) (e : Expr Exact) : Prop :=
  ∀ function value, e = .apply function (.number value) →
    Scalar.isWhole (Scalar.apply function value) = true →
      function.applyIn unit value = Scalar.apply function value

theorem foldsIn_radians (e : Expr Exact) : FoldsIn .radians e :=
  fun function value _ _ => applyIn_radians function value

/-! ### Computed numbers -/

theorem computed_real (x : ℝ) : computed (real x) = .number (real x) := by
  rw [computed, real_add_ofNat_zero]

theorem means_finite? {value : Exact} (found : finite? value = some result)
    (known : value = real x) : result.Means context x := by
  unfold finite? at found
  split at found
  · cases found
    rw [known, computed_real]
    exact means_number.2 rfl
  · cases found

/-- What is negated means the negative. -/
theorem means_negated? (found : negated? e = some result) (means : e.Means context x) :
    result.Means context (-x) := by
  unfold negated? at found
  split at found
  · cases found
    rcases means_neg.1 means with ⟨y, inner, rfl⟩
    rw [neg_neg]
    exact inner
  · next value =>
    split at found
    · cases found
      rw [means_number.1 means, neg_real, computed_real]
      exact means_number.2 rfl
    · cases found
  · cases found

/-- A term with a quotient of numbers as its factor means the product. -/
theorem means_scaled? {p q : ℝ} (nonzero : q ≠ 0) (found : scaled? (real p) (real q) e = some result)
    (means : e.Means context x) : result.Means context (p / q * x) := by
  have quotient : real p / real q = real (p / q) := realIf_eq_real_iff.2 ⟨nonzero, rfl⟩
  unfold scaled? at found
  rw [quotient] at found
  simp only at found
  split at found
  · cases found
  · split at found
    · next one =>
      cases found
      rcases (beq_iff _ _).1 one with ⟨r, left, right⟩
      have one : p / q = 1 := by
        rw [Exact.real.inj left, ← Exact.real.inj right, Nat.cast_one]
      rw [one, one_mul]
      exact means
    · cases found
      rw [computed_real]
      exact means_binary.2 ⟨_, _, means_number.2 rfl, means, trivial, rfl⟩

/-- An operation on numbers that is carried out means its result. Only a function may depend on the unit. -/
theorem sound_foldConstants (folds : FoldsIn context.unit e)
    (fires : foldConstants.result? e = some result) (means : e.Means context x) :
    result.Means context x := by
  simp only [result?] at fires
  unfold fold? at fires
  split at fires
  · next op p q =>
    rcases means_binary.1 means with ⟨y, z, left, right, domain, value⟩
    refine means_finite? fires (apply_eq_real_iff.2 ⟨y, z, ?_, ?_, domain, value⟩)
    · exact means_number.1 left
    · exact means_number.1 right
  · rcases means_neg.1 means with ⟨y, operand, value⟩
    exact means_finite? fires (neg_eq_real_iff.2 ⟨y, means_number.1 operand, value⟩)
  · next function value =>
    rcases means_applyIn.1 means with ⟨y, operand, result_⟩
    simp only at fires
    split at fires
    · next whole =>
      rw [← means_number.1 operand, folds function value rfl whole] at result_
      exact means_finite? fires result_
    · cases fires
  · cases fires

/-! ### Sums and differences -/

theorem sound_addZero : SoundInAnyUnit addZero := by
  intro context e result x fires means
  simp only [result?] at fires
  split at fires
  · rcases means_binary.1 means with ⟨y, z, left, right, -, rfl⟩
    rw [operationValue]
    split at fires
    · next zero =>
      cases fires
      rw [right.eq_of_isNat zero, Nat.cast_zero, add_zero]
      exact left
    · split at fires
      · next zero =>
        cases fires
        rw [left.eq_of_isNat zero, Nat.cast_zero, zero_add]
        exact right
      · cases fires
  · cases fires

theorem sound_subtractZero : SoundInAnyUnit subtractZero := by
  intro context e result x fires means
  simp only [result?] at fires
  split at fires
  · rcases means_binary.1 means with ⟨y, z, left, right, -, rfl⟩
    split at fires
    · next zero =>
      cases fires
      rw [operationValue, right.eq_of_isNat zero, Nat.cast_zero, sub_zero]
      exact left
    · cases fires
  · cases fires

theorem sound_subtractFromZero : SoundInAnyUnit subtractFromZero := by
  intro context e result x fires means
  simp only [result?] at fires
  split at fires
  · rcases means_binary.1 means with ⟨y, z, left, right, -, rfl⟩
    split at fires
    · next zero =>
      cases fires
      rw [operationValue, left.eq_of_isNat zero, Nat.cast_zero, zero_sub]
      exact means_neg.2 ⟨z, right, rfl⟩
    · cases fires
  · cases fires

theorem sound_subtractSelf : SoundInAnyUnit subtractSelf := by
  intro context e result x fires means
  simp only [result?] at fires
  split at fires
  · rcases means_binary.1 means with ⟨y, z, left, right, -, rfl⟩
    split at fires
    · next same =>
      cases fires
      rw [eq_of_same same] at left
      rw [operationValue, left.unique right, sub_self, means_ofNat, Nat.cast_zero]
    · cases fires
  · cases fires

theorem sound_addNegative : SoundInAnyUnit addNegative := by
  intro context e result x fires means
  simp only [result?] at fires
  split at fires
  · rcases means_binary.1 means with ⟨y, z, left, right, -, rfl⟩
    rcases Option.map_eq_some_iff.1 fires with ⟨c, found, rfl⟩
    refine means_binary.2 ⟨y, -z, left, means_negated? found right, trivial, ?_⟩
    exact sub_neg_eq_add y z
  · cases fires

theorem sound_subtractNegative : SoundInAnyUnit subtractNegative := by
  intro context e result x fires means
  simp only [result?] at fires
  split at fires
  · rcases means_binary.1 means with ⟨y, z, left, right, -, rfl⟩
    rcases Option.map_eq_some_iff.1 fires with ⟨c, found, rfl⟩
    refine means_binary.2 ⟨y, -z, left, means_negated? found right, trivial, ?_⟩
    exact (sub_eq_add_neg y z).symm
  · cases fires

/-! ### Products -/

theorem sound_multiplyOne : SoundInAnyUnit multiplyOne := by
  intro context e result x fires means
  simp only [result?] at fires
  split at fires
  · rcases means_binary.1 means with ⟨y, z, left, right, -, rfl⟩
    rw [operationValue]
    split at fires
    · next one =>
      cases fires
      rw [right.eq_of_isNat one, Nat.cast_one, mul_one]
      exact left
    · split at fires
      · next one =>
        cases fires
        rw [left.eq_of_isNat one, Nat.cast_one, one_mul]
        exact right
      · cases fires
  · cases fires

theorem sound_multiplyZero : SoundInAnyUnit multiplyZero := by
  intro context e result x fires means
  simp only [result?] at fires
  split at fires
  · rcases means_binary.1 means with ⟨y, z, left, right, -, rfl⟩
    split at fires
    · next zero =>
      cases fires
      rw [operationValue, means_ofNat, Nat.cast_zero]
      rcases Bool.or_eq_true_iff.1 zero with first | second
      · rw [left.eq_of_isNat first, Nat.cast_zero, zero_mul]
      · rw [right.eq_of_isNat second, Nat.cast_zero, mul_zero]
    · cases fires
  · cases fires

theorem sound_constantFirst : SoundInAnyUnit constantFirst := by
  intro context e result x fires means
  simp only [result?] at fires
  split at fires
  · cases fires
  · rcases means_binary.1 means with ⟨y, z, left, right, -, rfl⟩
    cases fires
    exact means_binary.2 ⟨z, y, right, left, trivial, mul_comm z y⟩
  · cases fires

theorem sound_combineConstantFactors : SoundInAnyUnit combineConstantFactors := by
  intro context e result x fires means
  simp only [result?] at fires
  split at fires
  · rcases means_binary.1 means with ⟨p, z, first, product, -, rfl⟩
    rcases means_binary.1 product with ⟨q, y, second, term, -, rfl⟩
    split at fires
    · cases fires
      rw [means_number.1 first, means_number.1 second, mul_real, computed_real]
      exact means_binary.2 ⟨p * q, y, means_number.2 rfl, term, trivial, mul_assoc p q y⟩
    · cases fires
  · cases fires

theorem sound_multiplyNegativeOne : SoundInAnyUnit multiplyNegativeOne := by
  intro context e result x fires means
  simp only [result?] at fires
  split at fires
  · rcases means_binary.1 means with ⟨y, z, left, right, -, rfl⟩
    split at fires
    · next negativeOne =>
      cases fires
      rw [eq_of_isNumber negativeOne, means_number, ofNat_eq, neg_real, Nat.cast_one] at left
      rw [operationValue, ← Exact.real.inj left, neg_one_mul]
      exact means_neg.2 ⟨z, right, rfl⟩
    · cases fires
  · cases fires

/-! ### Quotients -/

theorem sound_divideOne : SoundInAnyUnit divideOne := by
  intro context e result x fires means
  simp only [result?] at fires
  split at fires
  · rcases means_binary.1 means with ⟨y, z, left, right, -, rfl⟩
    split at fires
    · next one =>
      cases fires
      rw [operationValue, right.eq_of_isNat one, Nat.cast_one, div_one]
      exact left
    · cases fires
  · cases fires

theorem sound_divideZero : SoundInAnyUnit divideZero := by
  intro context e result x fires means
  simp only [result?] at fires
  split at fires
  · rcases means_binary.1 means with ⟨y, z, left, right, -, rfl⟩
    split at fires
    · next fits =>
      cases fires
      rcases Bool.and_eq_true_iff.1 fits with ⟨zero, -⟩
      rw [operationValue, left.eq_of_isNat zero, Nat.cast_zero, zero_div, means_ofNat,
        Nat.cast_zero]
    · cases fires
  · cases fires

/-- A quotient that exists has no zero below the line, so both sides are the same number but zero. -/
theorem sound_divideSelf : SoundInAnyUnit divideSelf := by
  intro context e result x fires means
  simp only [result?] at fires
  split at fires
  · rcases means_binary.1 means with ⟨y, z, left, right, nonzero, rfl⟩
    split at fires
    · next fits =>
      cases fires
      rcases Bool.and_eq_true_iff.1 fits with ⟨same, -⟩
      rw [eq_of_same same] at left
      rw [operationValue, left.unique right, div_self nonzero, means_ofNat, Nat.cast_one]
    · cases fires
  · cases fires

theorem sound_divideConstantFactor : SoundInAnyUnit divideConstantFactor := by
  intro context e result x fires means
  simp only [result?] at fires
  split at fires
  · rcases means_binary.1 means with ⟨z, q, product, second, nonzero, rfl⟩
    rcases means_binary.1 product with ⟨p, y, first, term, -, rfl⟩
    rw [means_number.1 first, means_number.1 second] at fires
    rw [operationValue, operationValue, ← div_mul_eq_mul_div]
    exact means_scaled? nonzero fires term
  · cases fires

theorem sound_multiplyFraction : SoundInAnyUnit multiplyFraction := by
  intro context e result x fires means
  simp only [result?] at fires
  split at fires
  · rcases means_binary.1 means with ⟨p, z, first, quotient, -, rfl⟩
    rcases means_binary.1 quotient with ⟨y, q, term, second, nonzero, rfl⟩
    rw [means_number.1 first, means_number.1 second] at fires
    rw [operationValue, operationValue, ← mul_div_assoc, ← div_mul_eq_mul_div]
    exact means_scaled? nonzero fires term
  · cases fires

/-! ### Powers -/

theorem sound_powerOne : SoundInAnyUnit powerOne := by
  intro context e result x fires means
  simp only [result?] at fires
  split at fires
  · rcases means_binary.1 means with ⟨y, z, left, right, -, rfl⟩
    split at fires
    · next one =>
      cases fires
      rw [operationValue, right.eq_of_isNat one, Nat.cast_one, Real.rpow_one]
      exact left
    · cases fires
  · cases fires

theorem sound_powerZero : SoundInAnyUnit powerZero := by
  intro context e result x fires means
  simp only [result?] at fires
  split at fires
  · rcases means_binary.1 means with ⟨y, z, left, right, -, rfl⟩
    split at fires
    · next fits =>
      cases fires
      rcases Bool.and_eq_true_iff.1 fits with ⟨zero, -⟩
      rw [operationValue, right.eq_of_isNat zero, Nat.cast_zero, Real.rpow_zero, means_ofNat,
        Nat.cast_one]
    · cases fires
  · cases fires

theorem sound_onePower : SoundInAnyUnit onePower := by
  intro context e result x fires means
  simp only [result?] at fires
  split at fires
  · rcases means_binary.1 means with ⟨y, z, left, right, -, rfl⟩
    split at fires
    · next one =>
      cases fires
      rw [operationValue, left.eq_of_isNat one, Nat.cast_one, Real.one_rpow, means_ofNat,
        Nat.cast_one]
    · cases fires
  · cases fires

/-- A power of a power is the power with the product of the exponents, if the inner exponent is not even
    or the outer one is whole. -/
theorem power_of_power {a b c : ℝ} (inner : PowerDomain a b) (outer : PowerDomain (a ^ b) c)
    (keepsSign : (∃ n : ℤ, b = 2 * n) → ∃ n : ℤ, c = n) :
    PowerDomain a (b * c) ∧ a ^ (b * c) = (a ^ b) ^ c := by
  rcases inner with positive | ⟨rfl, nonnegative⟩ | ⟨negative, n, rfl⟩
  · exact ⟨.inl positive, Real.rpow_mul (le_of_lt positive) b c⟩
  · rcases eq_or_lt_of_le nonnegative with rfl | above
    · rw [zero_mul, Real.rpow_zero, Real.one_rpow]
      exact ⟨.inr (.inl ⟨rfl, le_refl 0⟩), rfl⟩
    · -- a power of zero that exists has an exponent that is not negative
      rw [Real.zero_rpow (ne_of_gt above)] at outer ⊢
      have exponent : 0 ≤ c := by
        rcases outer with impossible | ⟨-, bound⟩ | ⟨impossible, -⟩
        · exact absurd impossible (lt_irrefl 0)
        · exact bound
        · exact absurd impossible (lt_irrefl 0)
      refine ⟨.inr (.inl ⟨rfl, mul_nonneg nonnegative exponent⟩), ?_⟩
      rcases eq_or_lt_of_le exponent with rfl | aboveToo
      · rw [mul_zero]
      · rw [Real.zero_rpow (ne_of_gt aboveToo), Real.zero_rpow (ne_of_gt (mul_pos above aboveToo))]
  · -- below zero the outer exponent is whole: by the rule's condition, or because the inner power is
    -- negative itself
    have whole : ∃ m : ℤ, c = m := by
      rcases Int.even_or_odd' n with ⟨k, even | odd⟩
      · exact keepsSign ⟨k, by rw [even]; push_cast; ring⟩
      · have below : a ^ (n : ℝ) < 0 := by
          rw [Real.rpow_intCast]
          exact Odd.zpow_neg ⟨k, odd⟩ negative
        rcases outer with above | ⟨zero, -⟩ | ⟨-, whole⟩
        · exact absurd above (not_lt_of_gt below)
        · exact absurd zero (ne_of_lt below)
        · exact whole
    rcases whole with ⟨m, rfl⟩
    refine ⟨.inr (.inr ⟨negative, n * m, by push_cast; rfl⟩), ?_⟩
    rw [← Int.cast_mul, Real.rpow_intCast, Real.rpow_intCast, Real.rpow_intCast, zpow_mul]

theorem sound_powerOfPower : SoundInAnyUnit powerOfPower := by
  intro context e result x fires means
  simp only [result?] at fires
  split at fires
  · rcases means_binary.1 means with ⟨z, r, power, outerExponent, outer, rfl⟩
    rcases means_binary.1 power with ⟨y, q, base, innerExponent, inner, rfl⟩
    rw [means_number.1 innerExponent, means_number.1 outerExponent] at fires
    split at fires
    · cases fires
    · next allowed =>
      split at fires
      · cases fires
        have keepsSign : (∃ n : ℤ, q = 2 * n) → ∃ n : ℤ, r = n := by
          intro even
          by_contra broken
          refine allowed (Bool.and_eq_true_iff.2 ⟨(holds_real_iff _ q).2 even, ?_⟩)
          rw [Bool.not_eq_true', Bool.eq_false_iff]
          intro whole
          exact broken ((holds_real_iff _ r).1 whole)
        rcases power_of_power inner outer keepsSign with ⟨domain, value⟩
        rw [mul_real, computed_real]
        exact means_binary.2 ⟨y, q * r, base, means_number.2 rfl, domain, value⟩
      · cases fires
  · cases fires

/-! ### Minus signs -/

theorem sound_doubleNegation : SoundInAnyUnit doubleNegation := by
  intro context e result x fires means
  simp only [result?] at fires
  split at fires
  · rcases means_neg.1 means with ⟨z, negated, rfl⟩
    rcases means_neg.1 negated with ⟨y, operand, rfl⟩
    cases fires
    rw [neg_neg]
    exact operand
  · cases fires

theorem sound_negateConstantFactor : SoundInAnyUnit negateConstantFactor := by
  intro context e result x fires means
  simp only [result?] at fires
  split at fires
  · rcases means_neg.1 means with ⟨z, product, rfl⟩
    rcases means_binary.1 product with ⟨p, y, factor, term, -, rfl⟩
    cases fires
    rw [means_number.1 factor, neg_real, computed_real]
    exact means_binary.2 ⟨-p, y, means_number.2 rfl, term, trivial, neg_mul p y⟩
  · cases fires

/-- All rules are sound with angles in the unit of the context, if folding is. -/
theorem sound_of_foldsIn {rule : Rule} (folds : FoldsIn context.unit e)
    (fires : rule.result? e = some result) (means : e.Means context x) : result.Means context x := by
  cases rule with
  | foldConstants => exact sound_foldConstants folds fires means
  | addZero => exact sound_addZero fires means
  | subtractZero => exact sound_subtractZero fires means
  | subtractFromZero => exact sound_subtractFromZero fires means
  | subtractSelf => exact sound_subtractSelf fires means
  | addNegative => exact sound_addNegative fires means
  | subtractNegative => exact sound_subtractNegative fires means
  | multiplyOne => exact sound_multiplyOne fires means
  | multiplyZero => exact sound_multiplyZero fires means
  | constantFirst => exact sound_constantFirst fires means
  | combineConstantFactors => exact sound_combineConstantFactors fires means
  | multiplyNegativeOne => exact sound_multiplyNegativeOne fires means
  | divideOne => exact sound_divideOne fires means
  | divideZero => exact sound_divideZero fires means
  | divideSelf => exact sound_divideSelf fires means
  | divideConstantFactor => exact sound_divideConstantFactor fires means
  | multiplyFraction => exact sound_multiplyFraction fires means
  | powerOne => exact sound_powerOne fires means
  | powerZero => exact sound_powerZero fires means
  | onePower => exact sound_onePower fires means
  | powerOfPower => exact sound_powerOfPower fires means
  | doubleNegation => exact sound_doubleNegation fires means
  | negateConstantFactor => exact sound_negateConstantFactor fires means

/-- All rules are sound. -/
theorem sound (rule : Rule) : Sound rule := by
  intro context e result x radians fires means
  exact sound_of_foldsIn (radians ▸ foldsIn_radians e) fires means

end Rule

namespace Expr

variable {context : Context Exact} {x : ℝ}

/-! ### Passes -/

mutual

/-- The nodes as a pass finds them, each after its operands. -/
def visited {α : Type} [Scalar α] : Expr α → List (Expr α)
  | number value => [number value]
  | symbol name => [symbol name]
  | neg operand => operand.visited ++ [neg operand.pass.1]
  | apply function operand => operand.visited ++ [apply function operand.pass.1]
  | binary op left right => left.visited ++ right.visited ++ [binary op left.pass.1 right.pass.1]
  | call name arguments => visitedAll arguments ++ [call name (passAll arguments).1]

/-- The nodes of a row of expressions as a pass finds them. -/
def visitedAll {α : Type} [Scalar α] : List (Expr α) → List (Expr α)
  | [] => []
  | first :: others => first.visited ++ visitedAll others

end

/-- Whatever functions of numbers repeated passes fold, they have the same values with angles in the
    unit. -/
def FoldsIn (unit : AngleUnit) (e : Expr Exact) : Prop :=
  ∀ passes, ∀ node ∈ (afterPasses passes e).1.visited, Rule.FoldsIn unit node

theorem means_finish {e : Expr Exact} (applied : List Rule) (folds : Rule.FoldsIn context.unit e)
    (means : e.Means context x) : (e.finish applied).1.Means context x := by
  unfold finish
  split
  · next rule result found =>
    rcases List.exists_of_findSome?_eq_some found with ⟨tried, -, fires⟩
    rcases Option.map_eq_some_iff.1 fires with ⟨made, makes, pair⟩
    cases pair
    exact Rule.sound_of_foldsIn folds makes means
  · exact means

/-- A pass leaves the meaning of a defined expression as it is. -/
theorem means_pass : ∀ {e : Expr Exact} {x : ℝ},
    (∀ node ∈ e.visited, Rule.FoldsIn context.unit node) → e.Means context x →
      e.pass.1.Means context x
  | number value, _, folds, means => means_finish _ (folds _ (List.mem_singleton_self _)) means
  | symbol name, _, folds, means => means_finish _ (folds _ (List.mem_singleton_self _)) means
  | neg operand, x, folds, means => by
      rcases means_neg.1 means with ⟨y, inner, value⟩
      obtain ⟨below, here⟩ := List.forall_mem_append.1 folds
      exact means_finish _ (here _ (List.mem_singleton_self _))
        (means_neg.2 ⟨y, means_pass below inner, value⟩)
  | apply function operand, x, folds, means => by
      rcases means_applyIn.1 means with ⟨y, inner, value⟩
      obtain ⟨below, here⟩ := List.forall_mem_append.1 folds
      exact means_finish _ (here _ (List.mem_singleton_self _))
        (means_applyIn.2 ⟨y, means_pass below inner, value⟩)
  | binary op left right, x, folds, means => by
      rcases means_binary.1 means with ⟨y, z, l, r, rest⟩
      obtain ⟨below, here⟩ := List.forall_mem_append.1 folds
      obtain ⟨inLeft, inRight⟩ := List.forall_mem_append.1 below
      exact means_finish _ (here _ (List.mem_singleton_self _))
        (means_binary.2 ⟨y, z, means_pass inLeft l, means_pass inRight r, rest⟩)
  | call _ _, _, _, means => absurd means not_means_call

/-- What the passes lead to means the same, whether they come to rest or are stopped. -/
theorem means_settle_of_foldsIn {passes : ℕ} {e : Expr Exact} {steps : List Rule}
    (folds : e.FoldsIn context.unit) (means : e.Means context x) :
    (∀ simplified, e.settle passes steps = .ok simplified → simplified.result.Means context x) ∧
      ∀ last, e.settle passes steps = .error last → last.Means context x := by
  induction passes generalizing e steps with
  | zero =>
    constructor
    · intro simplified rested
      cases rested
    · intro last stopped
      cases stopped
      exact means
  | succ passes ih =>
    rw [settle]
    split
    · constructor
      · intro simplified rested
        cases rested
        exact means
      · intro last stopped
        cases stopped
    · exact ih (fun more => folds (more + 1)) (means_pass (folds 0) means)

theorem means_settle (radians : context.unit = .radians) {passes : ℕ} {e : Expr Exact}
    {steps : List Rule} (means : e.Means context x) :
    (∀ simplified, e.settle passes steps = .ok simplified → simplified.result.Means context x) ∧
      ∀ last, e.settle passes steps = .error last → last.Means context x := by
  have folds : e.FoldsIn context.unit := fun _ node _ => radians ▸ Rule.foldsIn_radians node
  exact means_settle_of_foldsIn folds means

/-! ### Simplification -/

instance : FlipsSign Exact where
  not_belowZero value below := by
    cases value with
    | undefined => rfl
    | real x =>
      have negative : x < 0 := (holds_real_iff _ x).1 below
      rw [neg_real, real_add_ofNat_zero, Bool.eq_false_iff]
      intro again
      exact absurd (neg_pos.2 negative) (not_lt_of_gt ((holds_real_iff _ (-x)).1 again))

/-- The second expression is defined with all its parts and has the same value as the first. -/
def Agrees (context : Context Exact) (before after : Expr Exact) : Prop :=
  after.DefinedThroughout context ∧ after.evaluate context = before.evaluate context

theorem agrees_of_means (radians : context.unit = .radians) {before after : Expr Exact}
    (means : before.Means context x) (means' : after.Means context x) :
    Agrees context before after :=
  ⟨(definedThroughout_iff radians after).2 ⟨x, means'⟩, means'.trans means.symm⟩

theorem simplifyWithin_agrees (radians : context.unit = .radians) {e : Expr Exact}
    (means : e.Means context x) (limit : ℕ) :
    (∀ simplified, e.simplifyWithin limit = .ok simplified →
        Agrees context e simplified.result) ∧
      ∀ stopped, e.simplifyWithin limit = .error stopped → Agrees context e stopped.last := by
  obtain ⟨rests, stops⟩ :
      (∀ simplified, e.settle limit [] = .ok simplified → simplified.result.Means context x) ∧
        ∀ last, e.settle limit [] = .error last → last.Means context x :=
    means_settle radians means
  unfold simplifyWithin
  split
  · next simplified settled =>
    constructor
    · rintro _ ⟨⟩
      exact agrees_of_means radians means (rests simplified settled)
    · intro stopped impossible
      cases impossible
  · next last settled =>
    constructor
    · intro simplified impossible
      cases impossible
    · rintro _ ⟨⟩
      exact agrees_of_means radians means (stops last settled)

/-- Simplification preserves meaning. Where an expression is defined with all its parts, so is what it is
    simplified to, and has the same value; the tree at which the simplification is stopped at its limit is
    no exception. A limit of four passes for every node is never reached. -/
theorem simplify_agrees (e : Expr Exact) (context : Context Exact)
    (radians : context.unit = .radians) (defined : e.DefinedThroughout context) :
    (∀ result, e.simplify = .ok result → Agrees context e result) ∧
      (∀ stopped, e.simplify = .error stopped → Agrees context e stopped.last) ∧
      ∀ limit, 4 * e.nodeCount ≤ limit →
        ∃ simplified, e.simplifyWithin limit = .ok simplified ∧
          Agrees context e simplified.result := by
  rcases (definedThroughout_iff radians e).1 defined with ⟨x, means⟩
  have within := simplifyWithin_agrees radians means
  refine ⟨?_, ?_, ?_⟩
  · intro result done
    unfold simplify at done
    split at done
    · next simplified rested =>
      cases done
      exact (within usualPassLimit).1 simplified rested
    · cases done
  · intro stopped failed
    unfold simplify at failed
    split at failed
    · cases failed
    · next limit reached =>
      cases failed
      exact (within usualPassLimit).2 _ reached
  · intro limit enough
    rcases simplifyWithin_of_nodeCount e enough with ⟨simplified, rested⟩
    exact ⟨simplified, rested, (within limit).1 simplified rested⟩

/-- The quotient `x / x` where `x` is three. -/
theorem simplify_agrees_quotient :
    ∃ simplified, (binary .div (symbol "x") (symbol "x") : Expr Exact).simplifyWithin 12 =
        .ok simplified ∧
      Agrees (Context.empty.set "x" (real 3)) (binary .div (symbol "x") (symbol "x"))
        simplified.result := by
  have three : (symbol "x").Means (Context.empty.set "x" (real 3)) 3 :=
    means_symbol.2 (by simp [Context.get?_set])
  have defined : (binary .div (symbol "x") (symbol "x")).DefinedThroughout
      (Context.empty.set "x" (real 3)) :=
    (definedThroughout_iff rfl _).2 ⟨_, means_binary.2 ⟨3, 3, three, three, three_ne_zero, rfl⟩⟩
  exact (simplify_agrees _ _ rfl defined).2.2 12 (by decide)

end Expr

end SymbolicCalculus
