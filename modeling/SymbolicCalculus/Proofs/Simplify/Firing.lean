/-
Module: SymbolicCalculus.Proofs.Simplify.Firing
Layer: Proofs
Purpose: What each rule makes of an expression, with all that it asks for, said once. What rules do to a
  measure or a property of expressions is read off here, one case for each form a rule leads to, without
  going through the definitions of the rules again.
Main exports: Rule.Firing, Rule.firing_of_result?
-/
import SymbolicCalculus.Simplify.Rule

namespace SymbolicCalculus.Rule

variable {α : Type} [Scalar α]

/-- The rule applies to the first expression and leads to the second. Where a rule has two forms, there is
    a case for each. -/
inductive Firing : Rule → Expr α → Expr α → Prop where
  | foldOperation {op : BinaryOp} {a b : α} (finite : Scalar.isFinite (op.apply a b) = true) :
      Firing .foldConstants (.binary op (.number a) (.number b)) (computed (op.apply a b))
  | foldMinus {a : α} (finite : Scalar.isFinite (-a) = true) :
      Firing .foldConstants (.neg (.number a)) (computed (-a))
  | foldFunction {function : Elementary} {a : α}
      (whole : Scalar.isWhole (Scalar.apply function a) = true)
      (finite : Scalar.isFinite (Scalar.apply function a) = true) :
      Firing .foldConstants (.apply function (.number a)) (computed (Scalar.apply function a))
  | addZero {a b : Expr α} (zero : b.isNat 0 = true) : Firing .addZero (.binary .add a b) a
  | zeroAdd {a b : Expr α} (zero : a.isNat 0 = true) : Firing .addZero (.binary .add a b) b
  | subtractZero {a b : Expr α} (zero : b.isNat 0 = true) :
      Firing .subtractZero (.binary .sub a b) a
  | subtractFromZero {a b : Expr α} (zero : a.isNat 0 = true) :
      Firing .subtractFromZero (.binary .sub a b) (.neg b)
  | subtractSelf {a b : Expr α} (same : a.same b = true) :
      Firing .subtractSelf (.binary .sub a b) (.ofNat 0)
  | addNegated {a b : Expr α} : Firing .addNegative (.binary .add a (.neg b)) (.binary .sub a b)
  | addBelowZero {a : Expr α} {c : α} (below : Scalar.belowZero c = true) :
      Firing .addNegative (.binary .add a (.number c)) (.binary .sub a (computed (-c)))
  | subtractNegated {a b : Expr α} :
      Firing .subtractNegative (.binary .sub a (.neg b)) (.binary .add a b)
  | subtractBelowZero {a : Expr α} {c : α} (below : Scalar.belowZero c = true) :
      Firing .subtractNegative (.binary .sub a (.number c)) (.binary .add a (computed (-c)))
  | multiplyOne {a b : Expr α} (one : b.isNat 1 = true) : Firing .multiplyOne (.binary .mul a b) a
  | oneMultiply {a b : Expr α} (one : a.isNat 1 = true) : Firing .multiplyOne (.binary .mul a b) b
  | multiplyZero {a b : Expr α} (zero : (a.isNat 0 || b.isNat 0) = true) :
      Firing .multiplyZero (.binary .mul a b) (.ofNat 0)
  | constantFirst {a : Expr α} {c : α} (other : ∀ value, a ≠ .number value) :
      Firing .constantFirst (.binary .mul a (.number c)) (.binary .mul (.number c) a)
  | combineConstantFactors {a b : α} {term : Expr α} (finite : Scalar.isFinite (a * b) = true) :
      Firing .combineConstantFactors (.binary .mul (.number a) (.binary .mul (.number b) term))
        (.binary .mul (computed (a * b)) term)
  | multiplyNegativeOne {a b : Expr α} (minusOne : a.isNumber (-Scalar.ofNat 1) = true) :
      Firing .multiplyNegativeOne (.binary .mul a b) (.neg b)
  | divideOne {a b : Expr α} (one : b.isNat 1 = true) : Firing .divideOne (.binary .div a b) a
  | divideZero {a b : Expr α} (zero : (a.isNat 0 && !b.isNat 0) = true) :
      Firing .divideZero (.binary .div a b) (.ofNat 0)
  | divideSelf {a b : Expr α} (same : (a.same b && !b.isNat 0) = true) :
      Firing .divideSelf (.binary .div a b) (.ofNat 1)
  | divideConstantFactor {a b : α} {term result : Expr α}
      (scaled : scaled? a b term = some result) :
      Firing .divideConstantFactor (.binary .div (.binary .mul (.number a) term) (.number b)) result
  | multiplyFraction {a b : α} {term result : Expr α} (scaled : scaled? a b term = some result) :
      Firing .multiplyFraction (.binary .mul (.number a) (.binary .div term (.number b))) result
  | powerOne {a b : Expr α} (one : b.isNat 1 = true) : Firing .powerOne (.binary .pow a b) a
  | powerZero {a b : Expr α} (zero : (b.isNat 0 && !a.isNat 0) = true) :
      Firing .powerZero (.binary .pow a b) (.ofNat 1)
  | onePower {a b : Expr α} (one : a.isNat 1 = true) : Firing .onePower (.binary .pow a b) (.ofNat 1)
  | powerOfPower {a : Expr α} {b c : α} (sign : (Scalar.isEven b && !Scalar.isWhole c) = false)
      (finite : Scalar.isFinite (b * c) = true) :
      Firing .powerOfPower (.binary .pow (.binary .pow a (.number b)) (.number c))
        (.binary .pow a (computed (b * c)))
  | doubleNegation {a : Expr α} : Firing .doubleNegation (.neg (.neg a)) a
  | negateConstantFactor {c : α} {a : Expr α} :
      Firing .negateConstantFactor (.neg (.binary .mul (.number c) a))
        (.binary .mul (computed (-c)) a)

variable {e result : Expr α}

theorem eq_computed_of_finite? {value : α} (found : finite? value = some result) :
    Scalar.isFinite value = true ∧ result = computed value := by
  unfold finite? at found
  split at found
  · next finite =>
    cases found
    exact ⟨finite, rfl⟩
  · cases found

theorem firing_of_fold? (found : fold? e = some result) : Firing .foldConstants e result := by
  unfold fold? at found
  split at found
  · obtain ⟨finite, rfl⟩ := eq_computed_of_finite? found
    exact .foldOperation finite
  · obtain ⟨finite, rfl⟩ := eq_computed_of_finite? found
    exact .foldMinus finite
  · simp only at found
    split at found
    · next whole =>
      obtain ⟨finite, rfl⟩ := eq_computed_of_finite? found
      exact .foldFunction whole finite
    · cases found
  · cases found

/-- A term is scaled by leaving it as it is or by putting a computed number in front. -/
theorem eq_of_scaled? {a b : α} {term : Expr α} (found : scaled? a b term = some result) :
    result = term ∨ Scalar.isFinite (a / b) = true ∧ result = .binary .mul (computed (a / b)) term := by
  unfold scaled? at found
  simp only at found
  split at found
  · cases found
  · next finite =>
    rw [Bool.not_eq_true', Bool.not_eq_false] at finite
    split at found
    · cases found
      exact .inl rfl
    · cases found
      exact .inr ⟨finite, rfl⟩

/-- Something negative is negated or a number below zero. -/
theorem cases_of_negated? {b c : Expr α} (found : negated? b = some c) :
    b = .neg c ∨ ∃ value, b = .number value ∧ c = computed (-value) ∧ Scalar.belowZero value = true := by
  unfold negated? at found
  split at found
  · cases found
    exact .inl rfl
  · next value =>
    split at found
    · next below =>
      cases found
      exact .inr ⟨value, rfl, rfl, below⟩
    · cases found
  · cases found

/-- Nothing else is ever the result of a rule. -/
theorem firing_of_result? {rule : Rule} (found : rule.result? e = some result) :
    Firing rule e result := by
  cases rule with
  | foldConstants => exact firing_of_fold? found
  | addZero | multiplyOne =>
    simp only [result?] at found
    split at found
    · split at found
      · next guard =>
        cases found
        constructor
        exact guard
      · split at found
        · next guard =>
          cases found
          constructor
          exact guard
        · cases found
    · cases found
  | subtractZero | subtractFromZero | subtractSelf | multiplyZero | combineConstantFactors
  | multiplyNegativeOne | divideOne | divideZero | divideSelf | powerOne | powerZero | onePower =>
    simp only [result?] at found
    split at found
    · split at found
      · next guard =>
        cases found
        constructor
        exact guard
      · cases found
    · cases found
  | addNegative | subtractNegative =>
    simp only [result?] at found
    split at found
    · obtain ⟨c, negative, rfl⟩ := Option.map_eq_some_iff.1 found
      rcases cases_of_negated? negative with rfl | ⟨value, rfl, rfl, below⟩
      · constructor
      · constructor
        exact below
    · cases found
  | constantFirst =>
    simp only [result?] at found
    split at found
    · cases found
    · next notNumber =>
      cases found
      refine .constantFirst ?_
      rintro value rfl
      exact notNumber value rfl
    · cases found
  | divideConstantFactor | multiplyFraction =>
    simp only [result?] at found
    split at found
    · constructor
      exact found
    · cases found
  | powerOfPower =>
    simp only [result?] at found
    split at found
    · split at found
      · cases found
      · next sign =>
        split at found
        · next finite =>
          cases found
          exact .powerOfPower (Bool.eq_false_iff.2 sign) finite
        · cases found
    · cases found
  | doubleNegation | negateConstantFactor =>
    simp only [result?] at found
    split at found
    · cases found
      constructor
    · cases found

end SymbolicCalculus.Rule
