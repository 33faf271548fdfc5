/-
Module: SymbolicCalculus.Proofs.Exact.Neutral
Layer: Proofs
Purpose: Zeros and ones at a node, with exact numbers. A zero that is added to something, and a one that it is
  multiplied with or divided by, are gone after a pass, whatever it is: folding is all that comes before the
  rules that leave them out, and with exact numbers it leads to the same.
Main exports: the instance AbsorbsZero Exact, Exact.IsReal, Exact.foldsSigns, Expr.finish_reals,
  Expr.finish_zero_add, Expr.finish_add_zero, Expr.finish_one_mul, Expr.finish_mul_one, Expr.finish_div_one,
  Expr.pass_zero_product_add, Expr.StandsFor
-/
import SymbolicCalculus.Proofs.Calculus.Independent
import SymbolicCalculus.Proofs.Simplify.Meaning

namespace SymbolicCalculus

open Exact SymbolicCalculus.Expr

namespace Exact

/-! ### Real numbers -/

/-- The element is a real number. -/
def IsReal (a : Exact) : Prop := ∃ x, a = real x

theorem isReal_of_isFinite {a : Exact} (finite : Scalar.isFinite a = true) : IsReal a := by
  cases a with
  | undefined => cases finite
  | real x => exact ⟨x, rfl⟩

theorem isFinite_real (x : ℝ) : Scalar.isFinite (real x) = true := (holds_real_iff _ x).2 trivial

theorem sub_real (x y : ℝ) : real x - real y = real (x - y) := realIf_eq_real_iff.2 ⟨trivial, rfl⟩

theorem div_real {y : ℝ} (x : ℝ) (nonzero : y ≠ 0) : real x / real y = real (x / y) :=
  realIf_eq_real_iff.2 ⟨nonzero, rfl⟩

theorem isZero_iff {a : Exact} : IsZero a ↔ a = real 0 := by
  rw [IsZero, beq_iff, ofNat_eq, Nat.cast_zero]
  constructor
  · rintro ⟨x, known, zero⟩
    rw [known, zero]
  · intro known
    exact ⟨0, known, rfl⟩

theorem not_beq {x y : ℝ} (other : x ≠ y) : (real x == real y) = false :=
  Bool.eq_false_iff.2 fun same => by
    obtain ⟨z, left, right⟩ := (beq_iff _ _).1 same
    exact other (Exact.real.inj (left.trans right.symm))

instance : AbsorbsZero Exact where
  zero := isZero_iff.2 (congrArg real Nat.cast_zero)
  not_one a zero := by
    rw [isZero_iff.1 zero, ofNat_eq, Nat.cast_one]
    exact not_beq zero_ne_one
  neg a zero := by
    rw [isZero_iff.1 zero, neg_real, real_add_ofNat_zero, neg_zero]
    exact ⟨isFinite_real 0, isZero_iff.2 rfl⟩
  add a b left right := by
    rw [isZero_iff.1 left, isZero_iff.1 right, add_real, real_add_ofNat_zero, add_zero]
    exact ⟨isFinite_real 0, isZero_iff.2 rfl⟩
  sub a b left right := by
    rw [isZero_iff.1 left, isZero_iff.1 right, sub_real, real_add_ofNat_zero, sub_zero]
    exact ⟨isFinite_real 0, isZero_iff.2 rfl⟩
  mul a b zero finite := by
    obtain ⟨z, product⟩ : ∃ z, BinaryOp.mul.apply a b = real z := isReal_of_isFinite finite
    obtain ⟨x, y, rfl, rfl, -, -⟩ := apply_eq_real_iff.1 product
    have factors : x = 0 ∨ y = 0 :=
      zero.imp (fun left => Exact.real.inj (isZero_iff.1 left))
        fun right => Exact.real.inj (isZero_iff.1 right)
    have none_ : x * y = 0 := mul_eq_zero.2 factors
    rw [mul_real, real_add_ofNat_zero, none_]
    exact isZero_iff.2 rfl
  div a b zero other finite := by
    obtain ⟨z, quotient⟩ : ∃ z, BinaryOp.div.apply a b = real z := isReal_of_isFinite finite
    obtain ⟨x, y, rfl, rfl, nonzero, -⟩ := apply_eq_real_iff.1 quotient
    have numerator : x = 0 := Exact.real.inj (isZero_iff.1 zero)
    rw [div_real x nonzero, real_add_ofNat_zero, numerator, zero_div]
    exact isZero_iff.2 rfl
  computed a _ zero := by
    rw [isZero_iff.1 zero, ofNat_eq, Nat.cast_zero]

/-- Real numbers keep finite when their signs are turned around. -/
theorem foldsSigns : FoldsSigns IsReal where
  neg := by
    rintro _ ⟨x, rfl⟩
    exact isFinite_real (-x)
  zero_sub := by
    rintro _ _ zero ⟨x, rfl⟩
    rw [isZero_iff.1 zero, sub_real]
    exact isFinite_real _
  minusOne_mul := by
    rintro factor _ minusOne ⟨x, rfl⟩
    obtain ⟨y, rfl, -⟩ := (beq_iff _ _).1 minusOne
    rw [mul_real]
    exact isFinite_real _

/-- Simplification puts real numbers in the place of real numbers. -/
theorem keeps : Rule.Keeps IsReal where
  zero := ⟨_, rfl⟩
  one := ⟨_, rfl⟩
  computed value finite := by
    obtain ⟨x, rfl⟩ := isReal_of_isFinite finite
    exact ⟨x, real_add_ofNat_zero x⟩
  negated := by
    rintro _ ⟨x, rfl⟩
    exact ⟨-x, by rw [neg_real, real_add_ofNat_zero]⟩

end Exact

namespace Expr

variable {applied : List Rule} {e t : Expr Exact}

/-! ### Whole numbers -/

theorem isNat_ofNat (n : ℕ) : (ofNat n : Expr Exact).isNat n = true :=
  (beq_iff _ _).2 ⟨n, rfl, rfl⟩

theorem eq_of_isNat {n : ℕ} (known : e.isNat n = true) : e = ofNat n := eq_of_isNumber known

theorem isNat_ofNat_of_ne {n m : ℕ} (other : n ≠ m) : (ofNat n : Expr Exact).isNat m = false :=
  not_beq fun same => other (Nat.cast_injective same)

/-- A whole number that is not negative is not minus one. -/
theorem ofNat_ne_minusOne (n : ℕ) : ((Scalar.ofNat n : Exact) == -Scalar.ofNat 1) = false := by
  have above : (0 : ℝ) ≤ n := Nat.cast_nonneg n
  rw [ofNat_eq, ofNat_eq, neg_real, Nat.cast_one]
  exact not_beq (by linarith)

/-! ### Operations on numbers -/

/-- An operation on real numbers is carried out where it exists. -/
theorem finish_reals {op : BinaryOp} {x y : ℝ} (domain : OperationDomain op x y) :
    ((binary op (number (real x)) (number (real y))).finish applied).1 =
      number (real (operationValue op x y)) := by
  have value : op.apply (real x) (real y) = real (operationValue op x y) :=
    apply_eq_real_iff.2 ⟨x, y, rfl, rfl, domain, rfl⟩
  rw [finish_binary_number (by rw [value]; exact isFinite_real _), value, Rule.computed_real]

/-- What is folded is an operation on real numbers. -/
theorem computed_eq {op : BinaryOp} {a b : Exact} (finite : Scalar.isFinite (op.apply a b) = true) :
    ∃ x y, a = real x ∧ b = real y ∧
      Rule.computed (op.apply a b) = number (real (operationValue op x y)) := by
  obtain ⟨z, known⟩ := isReal_of_isFinite finite
  obtain ⟨x, y, left, right, -, value⟩ := apply_eq_real_iff.1 known
  exact ⟨x, y, left, right, by rw [known, Rule.computed_real, value]⟩

/-! ### Neutral numbers

The rule that leaves out a neutral number leads to the other operand, and what folding leads to is no
different. No other rule that applies to the operation is tried before. -/

theorem computed_neutral_left {op : BinaryOp} {n : ℕ} {b : Exact}
    (neutral : ∀ y : ℝ, operationValue op n y = y)
    (finite : Scalar.isFinite (op.apply (Scalar.ofNat n) b) = true) :
    Rule.computed (op.apply (Scalar.ofNat n) b) = number b := by
  obtain ⟨x, y, left, rfl, result⟩ := computed_eq finite
  rw [result, ← Exact.real.inj left, neutral]

theorem computed_neutral_right {op : BinaryOp} {n : ℕ} {a : Exact}
    (neutral : ∀ x : ℝ, operationValue op x n = x)
    (finite : Scalar.isFinite (op.apply a (Scalar.ofNat n)) = true) :
    Rule.computed (op.apply a (Scalar.ofNat n)) = number a := by
  obtain ⟨x, y, rfl, right, result⟩ := computed_eq finite
  rw [result, ← Exact.real.inj right, neutral]

theorem finish_zero_add (t : Expr Exact) : ((binary .add (ofNat 0) t).finish applied).1 = t := by
  have fits : Rule.addZero.result? (binary .add (ofNat 0) t) = some t := by
    change (if t.isNat 0 = true then some (ofNat 0)
      else if (ofNat 0 : Expr Exact).isNat 0 = true then some t else none) = some t
    split
    · next zero => rw [eq_of_isNat zero]
    · exact if_pos (isNat_ofNat 0)
  refine finish_of_fits (· = t) fits rfl ?_ applied
  intro earlier other order firing
  cases firing with
  | foldOperation finite => exact computed_neutral_left (by simp [operationValue]) finite
  | addZero | zeroAdd | addNegated | addBelowZero => exact absurd order (by decide)

theorem finish_add_zero (t : Expr Exact) : ((binary .add t (ofNat 0)).finish applied).1 = t := by
  have fits : Rule.addZero.result? (binary .add t (ofNat 0)) = some t := if_pos (isNat_ofNat 0)
  refine finish_of_fits (· = t) fits rfl ?_ applied
  intro earlier other order firing
  cases firing with
  | foldOperation finite => exact computed_neutral_right (by simp [operationValue]) finite
  | addZero | zeroAdd | addBelowZero => exact absurd order (by decide)

theorem finish_one_mul (t : Expr Exact) : ((binary .mul (ofNat 1) t).finish applied).1 = t := by
  have fits : Rule.multiplyOne.result? (binary .mul (ofNat 1) t) = some t := by
    change (if t.isNat 1 = true then some (ofNat 1)
      else if (ofNat 1 : Expr Exact).isNat 1 = true then some t else none) = some t
    split
    · next one => rw [eq_of_isNat one]
    · exact if_pos (isNat_ofNat 1)
  refine finish_of_fits (· = t) fits rfl ?_ applied
  intro earlier other order firing
  cases firing with
  | foldOperation finite => exact computed_neutral_left (by simp [operationValue]) finite
  | multiplyOne | oneMultiply | multiplyZero | constantFirst | combineConstantFactors
  | multiplyNegativeOne | multiplyFraction => exact absurd order (by decide)

theorem finish_mul_one (t : Expr Exact) : ((binary .mul t (ofNat 1)).finish applied).1 = t := by
  have fits : Rule.multiplyOne.result? (binary .mul t (ofNat 1)) = some t := if_pos (isNat_ofNat 1)
  refine finish_of_fits (· = t) fits rfl ?_ applied
  intro earlier other order firing
  cases firing with
  | foldOperation finite => exact computed_neutral_right (by simp [operationValue]) finite
  | multiplyOne | oneMultiply | multiplyZero | constantFirst | multiplyNegativeOne =>
    exact absurd order (by decide)

theorem finish_div_one (t : Expr Exact) : ((binary .div t (ofNat 1)).finish applied).1 = t := by
  have fits : Rule.divideOne.result? (binary .div t (ofNat 1)) = some t := if_pos (isNat_ofNat 1)
  refine finish_of_fits (· = t) fits rfl ?_ applied
  intro earlier other order firing
  cases firing with
  | foldOperation finite => exact computed_neutral_right (by simp [operationValue]) finite
  | divideOne | divideZero | divideSelf | divideConstantFactor => exact absurd order (by decide)

/-! ### Neutral numbers in a pass -/

theorem pass_mul_one (t : Expr Exact) : (t * ofNat 1).pass.1 = t.pass.1 := finish_mul_one _

/-- A product with a zero adds nothing. -/
theorem pass_zero_product_add {d t : Expr Exact} (zero : d.pass.1 = ofNat 0) (f : Expr Exact) :
    (d * f + t).pass.1 = t.pass.1 := by
  have product : (d * f).pass.1 = ofNat 0 := finish_mul_zero (.inl zero)
  rw [add_def, pass, product]
  exact finish_zero_add _

/-! ### Literals -/

/-- The expression is the real number, or is written as the negative of a number. -/
def StandsFor (c : Expr Exact) (r : ℝ) : Prop := c.asNumber? = some (real r)

variable {c : Expr Exact} {r : ℝ} {var : String}

theorem standsFor_number (r : ℝ) : (number (real r)).StandsFor r := rfl

theorem StandsFor.cases (literal : c.StandsFor r) :
    c = number (real r) ∨ c = neg (number (real (-r))) := by
  unfold StandsFor asNumber? at literal
  split at literal
  · next value => exact .inl (congrArg number (Option.some.inj literal))
  · next value =>
    obtain ⟨x, rfl, known⟩ := neg_eq_real_iff.1 (Option.some.inj literal)
    exact .inr (by rw [← known, neg_neg])
  · cases literal

/-- A pass carries the minus sign out. -/
theorem StandsFor.pass (literal : c.StandsFor r) : c.pass.1 = number (real r) := by
  rcases literal.cases with rfl | rfl
  · rfl
  · have folds : Rule.computed (-real (-r)) = number (real r) := by
      rw [neg_real, neg_neg, Rule.computed_real]
    rw [← folds]
    exact finish_neg_number (isFinite_real _) _

theorem StandsFor.callFree (literal : c.StandsFor r) : c.CallFree := by
  rcases literal.cases with rfl | rfl <;> rfl

theorem StandsFor.madeOf {Name : String → Prop} (literal : c.StandsFor r) : c.MadeOf IsReal Name := by
  rcases literal.cases with rfl | rfl
  · exact .number ⟨_, rfl⟩
  · exact .neg (.number ⟨_, rfl⟩)

theorem StandsFor.simplify (literal : c.StandsFor r) : c.simplify = .ok (number (real r)) :=
  simplify_of_pass literal.pass (atRest_number _)

theorem StandsFor.not_dependsOn (literal : c.StandsFor r) : c.dependsOn var = false := by
  rcases literal.cases with rfl | rfl <;> rfl

theorem StandsFor.vanishes (literal : c.StandsFor r) : Vanishes var c := by
  have bare (value : Exact) : Vanishes var (number value) :=
    ⟨_, derivative_number value var, rfl⟩
  rcases literal.cases with rfl | rfl
  · exact bare _
  · exact (bare _).neg

end Expr

end SymbolicCalculus
