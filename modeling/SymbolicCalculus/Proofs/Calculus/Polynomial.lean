/-
Module: SymbolicCalculus.Proofs.Calculus.Polynomial
Layer: Proofs
Purpose: Polynomials survive being integrated and differentiated. What comes back is larger than the polynomial,
  with the exponents raised and lowered again and products with zeros. But each of its terms meets the term it
  has come from in one pass, so both trees become the same in one pass, and simplification leads to the same
  from there. Only the limit on the passes can keep it from that, and there are polynomials that reach it.
Main exports: Expr.Monomial, Expr.Polynomial, Expr.ReturnsInOnePass, Expr.returns_of_polynomial,
  Expr.polynomial_returns, Expr.polynomial_reaches_limit
-/
import SymbolicCalculus.Proofs.Calculus.Integrable

namespace SymbolicCalculus.Expr

open Exact

/-! ### Polynomials -/

/-- The variable, or a power of it with a whole exponent. The number is the exponent. -/
inductive Monomial (var : String) : Expr Exact → ℕ → Prop where
  | symbol : Monomial var (.symbol var) 1
  | power (n : ℕ) : Monomial var (.symbol var ^ (ofNat n : Expr Exact)) n

/-- What sums, differences and minus signs make of constants, monomials, and monomials that are multiplied with
    or divided by a constant. Nothing has to be asked of a constant that divides, since it divides what comes
    back as well. -/
inductive Polynomial (var : String) : Expr Exact → Prop where
  | constant {c : Expr Exact} {r : ℝ} (literal : c.StandsFor r) : Polynomial var c
  | monomial {m : Expr Exact} {n : ℕ} (monomial : Monomial var m n) : Polynomial var m
  | scaled {c m : Expr Exact} {r : ℝ} {n : ℕ} (literal : c.StandsFor r) (monomial : Monomial var m n) :
      Polynomial var (c * m)
  | divided {c m : Expr Exact} {r : ℝ} {n : ℕ} (monomial : Monomial var m n) (literal : c.StandsFor r) :
      Polynomial var (m / c)
  | add {u v : Expr Exact} (left : Polynomial var u) (right : Polynomial var v) : Polynomial var (u + v)
  | sub {u v : Expr Exact} (left : Polynomial var u) (right : Polynomial var v) : Polynomial var (u - v)
  | neg {u : Expr Exact} (inner : Polynomial var u) : Polynomial var (-u)

variable {var : String} {m c u v P t : Expr Exact} {n k : ℕ} {r : ℝ} {applied : List Rule}

theorem Monomial.dependsOn (monomial : Monomial var m n) : m.dependsOn var = true := by
  cases monomial with
  | symbol => exact dependsOn_symbol var
  | power n => exact dependsOn_left (dependsOn_symbol var)

/-! ### A pass over a power -/

/-- A term before which a whole number greater than one can stand without a rule that fits. -/
structure Inert (t : Expr Exact) : Prop where
  notNumber : ∀ value, t ≠ number value
  notProduct : ∀ a b, t ≠ binary .mul a b
  notQuotient : ∀ a b, t ≠ binary .div a b

theorem Inert.isNat (inert : Inert t) (n : ℕ) : t.isNat n = false :=
  Bool.eq_false_iff.2 fun known => inert.notNumber _ (eq_of_isNat known)

/-- A power of the variable stays or becomes the variable, unless the exponent is zero. -/
theorem inert_pass_power (var : String) (positive : n ≠ 0) :
    Inert (symbol var ^ (ofNat n : Expr Exact)).pass.1 := by
  change Inert ((binary .pow (symbol var) (ofNat n)).finish []).1
  unfold finish
  split
  · next rule result found =>
    cases Rule.firing_of_result? (appliesFirst_of_firstRule? found).1 with
    | powerOne => exact ⟨nofun, nofun, nofun⟩
    | powerZero zero =>
      rw [isNat_ofNat_of_ne positive] at zero
      cases zero
    | onePower one => cases one
  · exact ⟨nofun, nofun, nofun⟩

/-- No rule fits a multiple of such a term. -/
theorem finish_scale (many : 2 ≤ k) (inert : Inert t) :
    ((binary .mul (ofNat k) t).finish applied).1 = binary .mul (ofNat k) t := by
  refine finish_of_not_firing ?_ applied
  intro rule result firing
  cases firing with
  | foldOperation => exact inert.notNumber _ rfl
  | multiplyOne one => exact Bool.false_ne_true ((inert.isNat 1).symm.trans one)
  | oneMultiply one =>
    rw [isNat_ofNat_of_ne (by omega)] at one
    cases one
  | multiplyZero zero =>
    rw [isNat_ofNat_of_ne (by omega), inert.isNat 0] at zero
    cases zero
  | constantFirst other => exact other _ rfl
  | combineConstantFactors => exact inert.notProduct _ _ rfl
  | multiplyNegativeOne minusOne =>
    exact Bool.false_ne_true ((ofNat_ne_minusOne k).symm.trans minusOne)
  | multiplyFraction => exact inert.notQuotient _ _ rfl

/-- A multiple that is divided by the same number is the term again. -/
theorem finish_unscale (many : 2 ≤ k) :
    ((binary .div (binary .mul (ofNat k) t) (ofNat k)).finish applied).1 = t := by
  have nonzero : (k : ℝ) ≠ 0 := Nat.cast_ne_zero.2 (by omega)
  have unit : (Scalar.ofNat k : Exact) / Scalar.ofNat k = Scalar.ofNat 1 := by
    rw [ofNat_eq, ofNat_eq, div_real _ nonzero, div_self nonzero, Nat.cast_one]
  have fits : Rule.divideConstantFactor.result? (binary .div (binary .mul (ofNat k) t) (ofNat k)) =
      some t := by
    change Rule.scaled? (Scalar.ofNat k) (Scalar.ofNat k) t = some t
    have same : ((Scalar.ofNat 1 : Exact) == Scalar.ofNat 1) = true := isNat_ofNat 1
    have finite : Scalar.isFinite (Scalar.ofNat 1 : Exact) = true := isFinite_real _
    rw [Rule.scaled?, unit]
    simp only [finite, same, Bool.not_true, Bool.false_eq_true, if_false, if_true]
  refine finish_of_fits (· = t) fits rfl ?_ applied
  intro earlier other order firing
  cases firing with
  | divideOne one =>
    rw [isNat_ofNat_of_ne (by omega)] at one
    cases one
  | divideZero zero => cases zero
  | divideSelf same => cases same
  | divideConstantFactor => exact absurd order (by decide)

/-! ### Powers that come back -/

section Returned

variable {α : Type} [Scalar α]

/-- An antiderivative of the power with the exponent before. -/
def raisedPower (var : String) (k : ℕ) : Expr α := symbol var ^ (ofNat k : Expr α) / ofNat k

/-- The power with its exponent lowered, as the rule for powers writes its derivative. -/
def loweredPower (var : String) (k : ℕ) : Expr α := symbol var ^ (ofNat k - ofNat 1 : Expr α)

/-- The derivative of that antiderivative. -/
def returnedPower (var : String) (k : ℕ) : Expr α := ofNat k * loweredPower var k * ofNat 1 / ofNat k

theorem derivative_raisedPower (var : String) (k : ℕ) :
    (raisedPower var k : Expr α).derivative var = .ok (returnedPower var k) := by
  have free : (ofNat k : Expr α).dependsOn var = false := rfl
  rw [raisedPower, div_def, derivative_div, free, pow_def, derivative_pow, free, derivative_symbol, if_pos rfl]
  rfl

end Returned

/-- The exponent is lowered again, and the factor and the divisor that raising it has led to are the same. -/
theorem pass_returnedPower (var : String) (n : ℕ) :
    (returnedPower var (n + 1) : Expr Exact).pass.1 = (symbol var ^ (ofNat n : Expr Exact)).pass.1 := by
  generalize reduced : ((symbol var : Expr Exact) ^ (ofNat n : Expr Exact)).pass.1 = t
  have lowered : (ofNat (n + 1) - ofNat 1 : Expr Exact).pass.1 = ofNat n := by
    have defined : OperationDomain .sub ((n + 1 : ℕ) : ℝ) ((1 : ℕ) : ℝ) := trivial
    have difference : operationValue .sub ((n + 1 : ℕ) : ℝ) ((1 : ℕ) : ℝ) = n := by
      simp [operationValue]
    exact (finish_reals defined).trans (congrArg (number ∘ real) difference)
  have power : (loweredPower var (n + 1) : Expr Exact).pass.1 = t := by
    rw [← reduced]
    exact pass_binary_of_same .pow rfl lowered
  have scaled : (ofNat (n + 1) * loweredPower var (n + 1) : Expr Exact).pass.1 =
      ((binary .mul (ofNat (n + 1)) t).finish []).1 := by
    rw [mul_def, pass, power, finish_fst]
    rfl
  have chained : (ofNat (n + 1) * loweredPower var (n + 1) * ofNat 1 : Expr Exact).pass.1 =
      ((binary .mul (ofNat (n + 1)) t).finish []).1 := by
    rw [pass_mul_one, scaled]
  rw [returnedPower, div_def, pass, chained]
  by_cases zero : n = 0
  · subst zero
    exact (finish_div_one _).trans (finish_one_mul t)
  · rw [finish_scale (by omega) (reduced ▸ inert_pass_power var zero)]
    exact finish_unscale (by omega)

theorem pass_monomial (monomial : Monomial var m n) :
    m.pass.1 = (symbol var ^ (ofNat n : Expr Exact)).pass.1 := by
  cases monomial with
  | power n => rfl
  | symbol =>
    have fits : Rule.powerOne.result? (binary .pow (symbol var) (ofNat 1 : Expr Exact)) =
        some (symbol var) := if_pos (isNat_ofNat 1)
    refine (finish_of_fits (· = symbol var) fits rfl ?_ []).symm
    intro earlier other order firing
    cases firing with
    | powerOne | powerZero | onePower => exact absurd order (by decide)

/-- A whole exponent that is not negative is raised by one. -/
theorem powerAntiderivative_whole (u : Expr Exact) (n : ℕ) :
    powerAntiderivative u (number (real n)) = u ^ (ofNat (n + 1) : Expr Exact) / ofNat (n + 1) := by
  have notMinusOne : (real n == -(Scalar.ofNat 1 : Exact)) = false := ofNat_ne_minusOne n
  have sum : real n + Scalar.ofNat 1 = Scalar.ofNat (n + 1) := by
    rw [ofNat_eq, ofNat_eq, add_real, Nat.cast_add]
  have raised : (number (real n) : Expr Exact).raisedExponent = ofNat (n + 1) := congrArg number sum
  rw [powerAntiderivative, raised]
  simp only [asNumber?, notMinusOne, Bool.false_eq_true, if_false]

theorem antiderivative_monomial (monomial : Monomial var m n) :
    m.antiderivative var = .ok (raisedPower var (n + 1)) := by
  cases monomial with
  | symbol => exact (antiderivative_symbol var var).trans (if_pos rfl)
  | power n =>
    have slope : (symbol var : Expr Exact).slope? var = .ok (some (Scalar.ofNat 1)) := by
      rw [slope?_eq]
      exact if_pos rfl
    have literal : (ofNat n : Expr Exact).StandsFor n := rfl
    have unit (e : Expr Exact) : e.overSlope (Scalar.ofNat 1) = e := if_pos (isNat_ofNat 1)
    rw [pow_def, antiderivative_pow (dependsOn_left (dependsOn_symbol var)), literal.not_dependsOn,
      literal.simplify, slope]
    change Except.ok ((powerAntiderivative (symbol var) (number (real n))).overSlope (Scalar.ofNat 1)) = _
    rw [unit, powerAntiderivative_whole, raisedPower]

/-! ### Polynomials that come back -/

/-- Integrated and differentiated again, the expression becomes in one pass what it becomes by itself. -/
def ReturnsInOnePass (var : String) (P : Expr Exact) : Prop :=
  ∃ F D, P.antiderivative var = .ok F ∧ F.derivative var = .ok D ∧ D.pass.1 = P.pass.1

/-- What the variable does not occur in is differentiated as a factor of it. -/
theorem returns_of_not_dependsOn (calls : P.CallFree) (free : P.dependsOn var = false)
    (vanishes : Vanishes var P) : ReturnsInOnePass var P := by
  obtain ⟨d, derived, zero⟩ := vanishes
  refine ⟨P * symbol var, d * symbol var + P * ofNat 1, antiderivative_of_not_dependsOn calls free, ?_, ?_⟩
  · rw [mul_def, derivative_mul, derived, derivative_symbol, if_pos rfl]
    rfl
  · rw [pass_zero_product_add zero, pass_mul_one]

theorem returns_monomial (monomial : Monomial var m n) : ReturnsInOnePass var m :=
  ⟨_, _, antiderivative_monomial monomial, derivative_raisedPower var (n + 1),
    (pass_returnedPower var n).trans (pass_monomial monomial).symm⟩

/-- A factor is a constant for both, so its derivative adds a zero to the product that comes back. -/
theorem returns_scaled (literal : c.StandsFor r) (depends : m.dependsOn var = true)
    (inner : ReturnsInOnePass var m) : ReturnsInOnePass var (c * m) := by
  obtain ⟨F, D, integrated, derived, same⟩ := inner
  obtain ⟨d, derivedFactor, zero⟩ : Vanishes var c := literal.vanishes
  refine ⟨c * F, d * F + c * D, ?_, ?_, ?_⟩
  · rw [mul_def, antiderivative_mul (dependsOn_right depends), literal.not_dependsOn, integrated]
    rfl
  · rw [mul_def, derivative_mul, derivedFactor, derived]
    rfl
  · rw [pass_zero_product_add zero]
    exact pass_binary_of_same .mul rfl same

theorem returns_divided (literal : c.StandsFor r) (depends : m.dependsOn var = true)
    (inner : ReturnsInOnePass var m) : ReturnsInOnePass var (m / c) := by
  obtain ⟨F, D, integrated, derived, same⟩ := inner
  refine ⟨F / c, D / c, ?_, ?_, ?_⟩
  · rw [div_def, antiderivative_div (dependsOn_left depends), literal.not_dependsOn, integrated]
    rfl
  · rw [div_def, derivative_div, literal.not_dependsOn, derived]
    rfl
  · exact pass_binary_of_same .div same rfl

theorem returns_additive {op : BinaryOp} (additive : op = .add ∨ op = .sub)
    (depends : (binary op u v).dependsOn var = true) (left : ReturnsInOnePass var u)
    (right : ReturnsInOnePass var v) : ReturnsInOnePass var (binary op u v) := by
  obtain ⟨F, D, integratedLeft, derivedLeft, sameLeft⟩ := left
  obtain ⟨G, E, integratedRight, derivedRight, sameRight⟩ := right
  refine ⟨binary op F G, binary op D E, ?_, ?_, ?_⟩
  · rw [antiderivative_additive additive depends, integratedLeft, integratedRight]
    rfl
  · rw [derivative_additive additive, derivedLeft, derivedRight]
    rfl
  · exact pass_binary_of_same op sameLeft sameRight

theorem returns_neg (depends : (-u).dependsOn var = true) (inner : ReturnsInOnePass var u) :
    ReturnsInOnePass var (-u) := by
  obtain ⟨F, D, integrated, derived, same⟩ := inner
  rw [neg_def] at depends ⊢
  refine ⟨-F, -D, ?_, ?_, ?_⟩
  · rw [antiderivative_neg, depends, integrated]
    rfl
  · rw [neg_def, derivative_neg, derived]
    rfl
  · exact pass_neg_of_same same

/-! ### What polynomials are made of -/

theorem Monomial.madeOf (monomial : Monomial var m n) : m.MadeOf IsReal (fun _ => True) := by
  cases monomial with
  | symbol => exact .symbol trivial
  | power n => exact .binary (.symbol trivial) (standsFor_number n).madeOf

theorem Monomial.callFree (monomial : Monomial var m n) : m.CallFree := by
  cases monomial <;> rfl

theorem Polynomial.madeOf (polynomial : Polynomial var P) : P.MadeOf IsReal (fun _ => True) := by
  induction polynomial with
  | constant literal => exact literal.madeOf
  | monomial monomial => exact monomial.madeOf
  | scaled literal monomial => exact .binary literal.madeOf monomial.madeOf
  | divided monomial literal => exact .binary monomial.madeOf literal.madeOf
  | add _ _ left right => exact .binary left right
  | sub _ _ left right => exact .binary left right
  | neg _ inner => exact .neg inner

theorem Polynomial.callFree (polynomial : Polynomial var P) : P.CallFree := by
  induction polynomial with
  | constant literal => exact literal.callFree
  | monomial monomial => exact monomial.callFree
  | scaled literal monomial => exact Nat.max_eq_zero_iff.2 ⟨literal.callFree, monomial.callFree⟩
  | divided monomial literal => exact Nat.max_eq_zero_iff.2 ⟨monomial.callFree, literal.callFree⟩
  | add _ _ left right => exact Nat.max_eq_zero_iff.2 ⟨left, right⟩
  | sub _ _ left right => exact Nat.max_eq_zero_iff.2 ⟨left, right⟩
  | neg _ inner => exact inner

/-- A polynomial without the variable is put together from constants, so its derivative vanishes. -/
theorem Polynomial.vanishes (polynomial : Polynomial var P) (free : P.dependsOn var = false) :
    Vanishes var P := by
  induction polynomial with
  | constant literal => exact literal.vanishes
  | monomial monomial => cases monomial.dependsOn.symm.trans free
  | scaled literal monomial => cases (dependsOn_right monomial.dependsOn).symm.trans free
  | divided monomial literal => cases (dependsOn_left monomial.dependsOn).symm.trans free
  | @add u v _ _ left right =>
    obtain ⟨freeLeft, freeRight⟩ := Bool.or_eq_false_iff.1 (dependsOn_binary .add u v var ▸ free)
    exact (left freeLeft).add (right freeRight)
  | @sub u v _ _ left right =>
    obtain ⟨freeLeft, freeRight⟩ := Bool.or_eq_false_iff.1 (dependsOn_binary .sub u v var ▸ free)
    exact (left freeLeft).sub (right freeRight)
  | neg _ inner => exact (inner free).neg

/-- Every polynomial comes back in one pass. By induction on the polynomial: a sub-sum without the variable is
    integrated as a whole, and everything else operand by operand. -/
theorem returns_of_polynomial (polynomial : Polynomial var P) : ReturnsInOnePass var P := by
  have whole {P : Expr Exact} (polynomial : Polynomial var P) (free : P.dependsOn var = false) :
      ReturnsInOnePass var P :=
    returns_of_not_dependsOn polynomial.callFree free (polynomial.vanishes free)
  induction polynomial with
  | constant literal => exact whole (.constant literal) literal.not_dependsOn
  | monomial monomial => exact returns_monomial monomial
  | scaled literal monomial => exact returns_scaled literal monomial.dependsOn (returns_monomial monomial)
  | divided monomial literal => exact returns_divided literal monomial.dependsOn (returns_monomial monomial)
  | @add u v left right ihLeft ihRight =>
    cases depends : (u + v).dependsOn var with
    | false => exact whole (.add left right) depends
    | true => exact returns_additive (.inl rfl) depends ihLeft ihRight
  | @sub u v left right ihLeft ihRight =>
    cases depends : (u - v).dependsOn var with
    | false => exact whole (.sub left right) depends
    | true => exact returns_additive (.inr rfl) depends ihLeft ihRight
  | @neg u inner ih =>
    cases depends : (-u).dependsOn var with
    | false => exact whole (.neg inner) depends
    | true => exact returns_neg depends ih

/-! ### The same result -/

/-- Integrating a polynomial and differentiating the result always succeeds, and simplification leads from there
    to what it makes of the polynomial. It comes to rest within any limit greater than the number of the
    polynomial's nodes, so it does within the usual one if there are fewer than a thousand of them. -/
theorem polynomial_returns (polynomial : Polynomial var P) :
    ∃ F D, P.antiderivative var = .ok F ∧ F.derivative var = .ok D ∧
      (∀ result, D.simplify = .ok result ↔ P.simplify = .ok result) ∧
      (∀ limit, P.nodeCount < limit →
        ∃ returned simplified, D.simplifyWithin limit = .ok returned ∧
          P.simplifyWithin limit = .ok simplified ∧ returned.result = simplified.result) ∧
      (P.nodeCount < usualPassLimit → ∃ result, D.simplify = .ok result ∧ P.simplify = .ok result) := by
  obtain ⟨F, D, integrated, derived, same⟩ := returns_of_polynomial polynomial
  have within (limit : ℕ) (enough : P.nodeCount < limit) :
      ∃ returned simplified, D.simplifyWithin limit = .ok returned ∧
        P.simplifyWithin limit = .ok simplified ∧ returned.result = simplified.result := by
    obtain ⟨simplified, settled⟩ :=
      settle_of_nodeCount Exact.foldsSigns Exact.keeps polynomial.madeOf enough
    have done : P.simplifyWithin limit = .ok simplified := by rw [simplifyWithin, settled]
    have one := nodeCount_pos P
    obtain ⟨returned, doneReturned, equal⟩ := simplifyWithin_of_same_pass same (by omega) done
    exact ⟨returned, simplified, doneReturned, done, equal⟩
  refine ⟨F, D, integrated, derived, fun result => ?_, within, fun few => ?_⟩
  · exact ⟨simplify_of_same_pass same.symm, simplify_of_same_pass same⟩
  · obtain ⟨returned, simplified, -, done, -⟩ := within usualPassLimit few
    have result : P.simplify = .ok simplified.result := by rw [simplify, done]
    exact ⟨simplified.result, simplify_of_same_pass same result, result⟩

/-- The polynomial `3 * x^2 - x / 2 + (-5)`. -/
theorem polynomial_returns_quadratic :
    let P : Expr Exact := ofNat 3 * symbol "x" ^ (ofNat 2 : Expr Exact) - symbol "x" / ofNat 2 + -ofNat 5
    Polynomial "x" P ∧ ∃ F D, P.antiderivative "x" = .ok F ∧ F.derivative "x" = .ok D ∧
      ∃ result, D.simplify = .ok result ∧ P.simplify = .ok result := by
  intro P
  have polynomial : Polynomial "x" P := by
    have five : (-ofNat 5 : Expr Exact).StandsFor (-(5 : ℕ)) := rfl
    exact .add (.sub (.scaled (standsFor_number _) (.power 2)) (.divided .symbol (standsFor_number _)))
      (.constant five)
  obtain ⟨F, D, integrated, derived, -, -, usual⟩ := polynomial_returns polynomial
  exact ⟨polynomial, F, D, integrated, derived, usual (by decide)⟩

/-! ### Polynomials that reach the limit -/

/-- The variable added to such a polynomial and subtracted again, over and over. -/
def cancelling {α : Type} : ℕ → Expr α
  | 0 => symbol "x" - symbol "x" - symbol "x"
  | k + 1 => symbol "x" + cancelling k - symbol "x"

theorem polynomial_cancelling : ∀ k, Polynomial "x" (cancelling k)
  | 0 => .sub (.sub (.monomial .symbol) (.monomial .symbol)) (.monomial .symbol)
  | k + 1 => .sub (.add (.monomial .symbol) (polynomial_cancelling k)) (.monomial .symbol)

theorem pass_cancelling_zero : (cancelling 0 : Expr Exact).pass.1 = -symbol "x" := by
  have zero : (symbol "x" - symbol "x" : Expr Exact).pass.1 = ofNat 0 := rfl
  have fits : Rule.subtractFromZero.result? (binary .sub (ofNat 0 : Expr Exact) (symbol "x")) =
      some (-symbol "x") := if_pos (isNat_ofNat 0)
  change (binary .sub (symbol "x" - symbol "x" : Expr Exact) (symbol "x")).pass.1 = -symbol "x"
  rw [pass, zero]
  refine finish_of_fits (· = -symbol "x") fits rfl ?_ _
  intro earlier other order firing
  cases firing with
  | subtractZero known => cases known
  | subtractFromZero | subtractSelf => exact absurd order (by decide)

/-- Each pass takes one round off: it turns the innermost difference into a minus sign, and the sum around a
    minus sign into a difference. -/
theorem pass_cancelling_succ : ∀ k, (cancelling (k + 1) : Expr Exact).pass.1 = cancelling k
  | 0 => by
      have sum : (symbol "x" + cancelling 0 : Expr Exact).pass.1 = symbol "x" - symbol "x" := by
        rw [add_def, pass, pass_cancelling_zero]
        rfl
      change (binary .sub (symbol "x" + cancelling 0 : Expr Exact) (symbol "x")).pass.1 = _
      rw [pass, sum]
      rfl
  | k + 1 => by
      have sum : (symbol "x" + cancelling (k + 1) : Expr Exact).pass.1 = symbol "x" + cancelling k := by
        rw [add_def, pass, pass_cancelling_succ k]
        cases k <;> rfl
      change (binary .sub (symbol "x" + cancelling (k + 1) : Expr Exact) (symbol "x")).pass.1 = _
      rw [pass, sum]
      cases k <;> rfl

theorem settle_cancelling : ∀ k steps,
    (cancelling k : Expr Exact).settle (k + 1) steps = .error (-symbol "x")
  | 0, steps => by
      obtain ⟨steps', taken⟩ := settle_of_changed pass_cancelling_zero (by decide) 0 steps
      exact taken
  | k + 1, steps => by
      have fewer : (cancelling k : Expr Exact).nodeCount ≠ (cancelling (k + 1) : Expr Exact).nodeCount := by
        simp only [cancelling, sub_def, add_def, nodeCount]
        omega
      obtain ⟨steps', taken⟩ := settle_of_changed (pass_cancelling_succ k) fewer (k + 1) steps
      rw [taken]
      exact settle_cancelling k steps'

/-- With a thousand rounds it takes a thousand passes, and one more to find nothing. -/
theorem polynomial_reaches_limit :
    Polynomial "x" (cancelling 999) ∧
      (cancelling 999 : Expr Exact).simplify = .error ⟨cancelling 999, usualPassLimit, -symbol "x"⟩ := by
  refine ⟨polynomial_cancelling 999, ?_⟩
  have stops : (cancelling 999 : Expr Exact).settle usualPassLimit [] = .error (-symbol "x") :=
    settle_cancelling 999 []
  rw [simplify, simplifyWithin, stops]

end SymbolicCalculus.Expr
