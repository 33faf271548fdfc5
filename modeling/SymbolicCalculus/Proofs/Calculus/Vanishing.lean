/-
Module: SymbolicCalculus.Proofs.Calculus.Vanishing
Layer: Proofs
Purpose: What does not depend on the variable has no slope. With machine numbers, the derivative of an
  expression without the variable is simplified to the number zero, and so it never passes for the argument of
  a linear substitution. The only way for the derivative to stay is a denominator that becomes zero.
Main exports: Expr.SimplifiesToZero, Expr.slope?_of_vanishes, Expr.simplify_derivative_of_not_dependsOn
-/
import SymbolicCalculus.Proofs.Double.Zeros
import SymbolicCalculus.Proofs.Simplify.Restoration

namespace SymbolicCalculus.Expr

variable {α : Type} [Scalar α] {e : Expr α}

/-- The expression is simplified to a number equal to zero. -/
def SimplifiesToZero (e : Expr α) : Prop := ∃ zero, e.simplify = .ok zero ∧ zero.isNat 0 = true

/-- What is zero after one pass stays so. -/
theorem simplifiesToZero_of_pass (zero : e.pass.1.isNat 0 = true) : e.SimplifiesToZero := by
  obtain ⟨value, passed, equal⟩ := exists_number_of_isNat zero
  exact ⟨number value, simplify_of_pass passed (atRest_number value), equal⟩

/-- An expression whose derivative vanishes is no argument of a linear substitution. -/
theorem slope?_of_vanishes {u : Expr Double} {var : String} (free : u.dependsOn var = false)
    (vanishes : Vanishes var u) : u.slope? var = .ok none := by
  obtain ⟨d, derived, zero⟩ := vanishes
  have other : u.asSymbol? ≠ some var := by
    intro is_var
    unfold asSymbol? at is_var
    split at is_var
    · cases is_var
      simp [dependsOn, symbols] at free
    · cases is_var
  rw [slope?_eq, if_neg other, derived]
  dsimp only
  rw [simplify_of_pass zero (atRest_number _)]
  rfl

/-- The derivative of an expression that has no calls, no absolute values and not the variable in it exists
    and is simplified to the number zero, if no denominator in the expression is simplified to zero. The
    numbers in the expression may be any, those that are not finite included. -/
theorem simplify_derivative_of_not_dependsOn {e : Expr Double} {var : String} (calls : e.CallFree)
    (abs : e.AbsFree) (free : e.dependsOn var = false)
    (denominators : ∀ numerator denominator : Expr Double, numerator / denominator ∈ e.postOrder →
      ¬ denominator.SimplifiesToZero) :
    ∃ d, e.derivative var = .ok d ∧ d.simplify = .ok (ofNat 0) := by
  have stay : e.DenominatorsStay := fun numerator denominator mem =>
    Bool.eq_false_iff.2 fun zero => denominators numerator denominator mem (simplifiesToZero_of_pass zero)
  obtain ⟨d, derived, zero⟩ : Vanishes var e := vanishes_of_not_dependsOn calls abs stay free
  exact ⟨d, derived, simplify_of_pass zero (atRest_number _)⟩

/-- The derivative of `sin(y)^2 / (y + 1)` by `x` is `2 * sin(y)^(2 - 1) * (cos(y) * 0) / (y + 1)`. -/
theorem simplify_derivative_of_not_dependsOn_quotient :
    let e : Expr Double := apply .sin (symbol "y") ^ (ofNat 2 : Expr Double) / (symbol "y" + ofNat 1)
    ∃ d, e.derivative "x" = .ok d ∧ d.simplify = .ok (ofNat 0) := by
  intro e
  have calls : e.CallFree := rfl
  have abs : e.AbsFree := by
    intro operand mem
    simp [e, postOrder, add_def, div_def, pow_def, ofNat] at mem
  have free : e.dependsOn "x" = false := by decide
  refine simplify_derivative_of_not_dependsOn calls abs free ?_
  rintro numerator denominator mem ⟨zero, simplified, isZero⟩
  have sum : denominator = symbol "y" + ofNat 1 := by
    simp [e, postOrder, add_def, div_def, pow_def, ofNat] at mem
    exact mem.2
  have stays : (symbol "y" + ofNat 1 : Expr Double).simplify = .ok (symbol "y" + ofNat 1) := rfl
  rw [sum, stays] at simplified
  cases simplified
  cases isZero

/-- A denominator of zero keeps the derivative from vanishing. -/
example : ∃ d, (symbol "y" / ofNat 0 : Expr Double).derivative "x" = .ok d ∧
    d.simplify = .ok (ofNat 0 / ofNat 0) := by
  refine ⟨ofNat 0 / ofNat 0, ?_, rfl⟩
  rw [div_def, derivative_div, derivative_symbol]
  rfl

end SymbolicCalculus.Expr
