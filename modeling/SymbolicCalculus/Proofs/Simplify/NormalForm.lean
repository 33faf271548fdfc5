/-
Module: SymbolicCalculus.Proofs.Simplify.NormalForm
Layer: Proofs
Purpose: Simplified expressions are normal forms. A pass finds nothing exactly if no rule fits at any node,
  those in the arguments of calls included. What is seen of such an expression does not depend on the order
  of the rules: a rule that is never reached because another one comes before it does not fit either. So
  each rule rules out its own pattern, and simplifying again changes nothing.
Main exports: Expr.IsNegative, Expr.IdleOperand, Expr.NormalForm, Expr.normalForm_of_atRest,
  Expr.simplified_is_normal
-/
import SymbolicCalculus.Proofs.Simplify.Restoration
import SymbolicCalculus.Proofs.Simplify.Steps

namespace SymbolicCalculus.Expr

open SymbolicCalculus.Rule

variable {α : Type} [Scalar α]

/-! ### Patterns without rules -/

/-- The expression is negated, or a number below zero. -/
def IsNegative (e : Expr α) : Prop :=
  (∃ operand, e = neg operand) ∨ ∃ value, e = number value ∧ Scalar.belowZero value = true

/-- One operand is zero or one, and there is an identity that does without it. Zero is not divided by
    zero, and not raised to it. -/
def IdleOperand : BinaryOp → Expr α → Expr α → Prop
  | .add, left, right => left.isNat 0 = true ∨ right.isNat 0 = true
  | .sub, left, right => left.isNat 0 = true ∨ right.isNat 0 = true
  | .mul, left, right =>
      left.isNat 0 = true ∨ right.isNat 0 = true ∨ left.isNat 1 = true ∨ right.isNat 1 = true
  | .div, left, right => right.isNat 1 = true ∨ left.isNat 0 = true ∧ right.isNat 0 = false
  | .pow, left, right =>
      right.isNat 1 = true ∨ left.isNat 1 = true ∨ right.isNat 0 = true ∧ left.isNat 0 = false

/-- What can be seen of a simplified expression, at any depth. -/
structure NormalForm (e : Expr α) : Prop where
  /-- Nothing negative is added. -/
  sum : ∀ left right, binary .add left right ∈ e.postOrder → ¬ right.IsNegative
  /-- Nothing negative is subtracted. -/
  difference : ∀ left right, binary .sub left right ∈ e.postOrder → ¬ right.IsNegative
  /-- A number in a product stands on the left. -/
  product : ∀ left right, binary .mul left right ∈ e.postOrder → right.isLiteral = true →
    left.isLiteral = true
  /-- Nothing is negated twice. -/
  negation : ∀ operand, neg operand ∈ e.postOrder → ∀ inner, operand ≠ neg inner
  /-- A negated product does not start with a number. -/
  negatedProduct : ∀ operand, neg operand ∈ e.postOrder →
    ∀ factor other, operand ≠ binary .mul (number factor) other
  /-- No operand is zero or one for nothing. -/
  operands : ∀ op left right, binary op left right ∈ e.postOrder → ¬ IdleOperand op left right

/-! ### What each rule rules out -/

/-- Where an expression is negative, a rule finds its negative. -/
theorem not_isNegative {e : Expr α} (finds : negated? e = none) : ¬ e.IsNegative := by
  rintro (⟨operand, rfl⟩ | ⟨value, rfl, below⟩)
  · cases finds
  · rw [negated?, if_pos below] at finds
    cases finds

theorem isLiteral_left {left right : Expr α} (fits : constantFirst.result? (binary .mul left right) = none)
    (literal : right.isLiteral = true) : left.isLiteral = true := by
  cases right with
  | number value =>
    cases left with
    | number _ => rfl
    | symbol | neg | apply | binary | call => cases fits
  | symbol | neg | apply | binary | call => cases literal

theorem not_idleOperand {op : BinaryOp} {left right : Expr α}
    (fits : ∀ rule : Rule, rule.result? (binary op left right) = none) :
    ¬ IdleOperand op left right := by
  intro idle
  cases op with
  | add =>
    have zero := fits addZero
    rcases idle with onLeft | onRight
    · simp only [result?, onLeft, if_true] at zero
      split at zero <;> cases zero
    · simp [result?, onRight] at zero
  | sub =>
    rcases idle with onLeft | onRight
    · have fromZero := fits subtractFromZero
      simp [result?, onLeft] at fromZero
    · have zero := fits subtractZero
      simp [result?, onRight] at zero
  | mul =>
    have zero := fits multiplyZero
    have one := fits multiplyOne
    rcases idle with onLeft | onRight | onLeft | onRight
    · simp [result?, onLeft] at zero
    · simp [result?, onRight] at zero
    · simp only [result?, onLeft, if_true] at one
      split at one <;> cases one
    · simp [result?, onRight] at one
  | div =>
    rcases idle with onRight | ⟨onLeft, other⟩
    · have one := fits divideOne
      simp [result?, onRight] at one
    · have zero := fits divideZero
      simp [result?, onLeft, other] at zero
  | pow =>
    rcases idle with onRight | onLeft | ⟨onRight, other⟩
    · have one := fits powerOne
      simp [result?, onRight] at one
    · have one := fits onePower
      simp [result?, onLeft] at one
    · have zero := fits powerZero
      simp [result?, onRight, other] at zero

/-- No rule fits anywhere, so each pattern that a rule looks for is missing. -/
theorem normalForm_of_atRest {e : Expr α} (rest : e.AtRest) : e.NormalForm where
  sum left right mem :=
    not_isNegative (Option.map_eq_none_iff.1 (rest _ mem addNegative))
  difference left right mem :=
    not_isNegative (Option.map_eq_none_iff.1 (rest _ mem subtractNegative))
  product left right mem literal := isLiteral_left (rest _ mem constantFirst) literal
  negation operand mem inner same := by
    have fits := rest _ mem doubleNegation
    rw [same] at fits
    cases fits
  negatedProduct operand mem factor other same := by
    have fits := rest _ mem negateConstantFactor
    rw [same] at fits
    cases fits
  operands op left right mem := not_idleOperand fun rule => rest _ mem rule

/-! ### Passes over normal forms -/

section Collectors

variable {σ : Type} [StepCollector σ]

/-- A pass answers nothing exactly if no rule fits at any node. -/
theorem reportPass_eq_none_iff (e : Expr α) (told : σ) :
    (e.reportPass told).1 = none ↔ e.AtRest := by
  have silent : (e.reportPass told).1.isNone = e.pass.2.isEmpty := by
    rw [reportPass_eq, isNone_reported]
  rw [← Option.isNone_iff_eq_none, silent, List.isEmpty_iff]
  constructor
  · exact fun still => (atRest_of_pass still).2
  · intro rest
    rw [pass_of_atRest rest]

/-- Simplifying an expression at rest takes one pass, and nobody hears of anything. -/
theorem simplifyReporting_of_atRest {e : Expr α} (rest : e.AtRest) {limit : Nat} (allowed : 0 < limit)
    (told : σ) : e.simplifyReporting limit told = .ok (e, told) := by
  obtain ⟨passes, rfl⟩ : ∃ passes, limit = passes + 1 := ⟨limit - 1, by omega⟩
  have settled : e.settle (passes + 1) [] = .ok ⟨e, []⟩ := by
    rw [settle, pass_of_atRest rest]
    rfl
  rw [simplifyReporting_eq, simplifyWithin, settled]
  rfl

/-- A pass finds nothing in an expression exactly if no rule fits at any of its nodes. Whatever
    simplification answers is such an expression, so it is a normal form, and simplifying it again gives the
    same without a step. -/
theorem simplified_is_normal :
    (∀ (e : Expr α) (told : σ), (e.reportPass told).1 = none ↔ e.AtRest) ∧
      ∀ (limit : Nat) (e result : Expr α) (told told' : σ),
        e.simplifyReporting limit told = .ok (result, told') →
          result.AtRest ∧ result.NormalForm ∧ result.simplify = .ok result ∧
            ∀ (again : Nat) (heard : σ), 0 < again →
              result.simplifyReporting again heard = .ok (result, heard) := by
  refine ⟨reportPass_eq_none_iff, fun limit e result told told' done => ?_⟩
  have rest : result.AtRest := by
    obtain ⟨simplified, settled, rfl⟩ := settle_of_simplifyReporting done
    exact atRest_of_settle settled
  have same : result.pass.1 = result := by rw [pass_of_atRest rest]
  exact ⟨rest, normalForm_of_atRest rest, simplify_of_pass same rest,
    fun again heard allowed => simplifyReporting_of_atRest rest allowed heard⟩

end Collectors

/-- `int((-(2 * x) + -3) * 1, x)` is a normal form once its argument is `-2 * x - 3`. -/
theorem simplified_is_normal_call :
    let e : Expr Double :=
      call integralName [(-(ofNat 2 * symbol "x") + -ofNat 3) * ofNat 1, symbol "x"]
    ∃ result, e.simplifyReporting usualPassLimit () = .ok (result, ()) ∧
      result.AtRest ∧ result.NormalForm ∧ result.simplify = .ok result ∧
        result.simplifyReporting 1 () = .ok (result, ()) := by
  intro e
  obtain ⟨result, done⟩ : ∃ result, e.simplifyReporting usualPassLimit () = .ok (result, ()) :=
    ⟨_, rfl⟩
  obtain ⟨rest, normal, usual, again⟩ := simplified_is_normal.2 _ _ _ _ _ done
  exact ⟨result, done, rest, normal, usual, again 1 () (by decide)⟩

end SymbolicCalculus.Expr
