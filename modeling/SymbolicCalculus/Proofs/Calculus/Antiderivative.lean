/-
Module: SymbolicCalculus.Proofs.Calculus.Antiderivative
Layer: Proofs
Purpose: Differentiation undoes integration. The derivative of the antiderivative of an expression means,
  over exact numbers, what the expression means, wherever both are defined. Each rule of integration leads
  to a result whose derivative is the expression times the slope of what stands inside; that slope is the
  number by which the result was divided, since simplification preserves meaning.
Main exports: Expr.Undoes, Expr.means_overSlope, Expr.undoes_of_antiderivativeAt?,
  Expr.LeadsBack, Expr.leadsBack_pow, Expr.means_of_reciprocal, Expr.leadsBack_of_means,
  Expr.derivative_antiderivative_agrees
-/
import SymbolicCalculus.Proofs.Calculus.Derivative
import SymbolicCalculus.Proofs.Expr.Ingredients
import SymbolicCalculus.Proofs.Simplify.Meaning

namespace SymbolicCalculus.Expr

open Exact

variable {context : Context Exact} {var : String} {x y z a b : ℝ} {e u v w F G D : Expr Exact}

/-! ### Expressions without the variable -/

/-- A variable that occurs in an expression with a meaning has a value. -/
theorem exists_value_of_dependsOn (radians : context.unit = .radians) :
    ∀ {e : Expr Exact} {y : ℝ}, e.Means context y → e.dependsOn var = true →
      ∃ x, context.get? var = some (real x)
  | number _, _, _, depends => nomatch depends
  | symbol name, y, means, depends => by
      obtain rfl : var = name := by simpa [dependsOn, symbols] using depends
      exact ⟨y, means_symbol.1 means⟩
  | neg operand, _, means, depends => by
      rcases means_neg.1 means with ⟨_, inner, -⟩
      exact exists_value_of_dependsOn radians inner depends
  | apply _ operand, _, means, depends => by
      rcases (means_apply radians).1 means with ⟨_, inner, -⟩
      exact exists_value_of_dependsOn radians inner depends
  | binary _ left right, _, means, depends => by
      rcases means_binary.1 means with ⟨_, _, l, r, -⟩
      have either : left.dependsOn var = true ∨ right.dependsOn var = true := by
        simpa [dependsOn, symbols] using depends
      rcases either with depends | depends
      · exact exists_value_of_dependsOn radians l depends
      · exact exists_value_of_dependsOn radians r depends
  | call _ _, _, means, _ => absurd means not_means_call

/-- The derivative of an expression without the variable means zero. -/
theorem eq_zero_of_not_dependsOn (radians : context.unit = .radians)
    (bound : context.get? var = some (real x)) (free : u.dependsOn var = false)
    (means : u.Means context y) (derived : u.derivative var = .ok D) (slope : D.Means context z) :
    z = 0 := by
  have near : DefinedNear context var x u := by
    refine Filter.Eventually.of_forall fun t => ⟨y, ?_⟩
    exact (means_set_of_not_dependsOn free _).2 means
  have slopeThere := isSlope_of_derivative radians bound derived near z slope
  rw [along_of_not_dependsOn free means] at slopeThere
  exact slopeThere.unique (hasDerivAt_const x y)

/-- What does not contain the variable is integrated to its product with the variable. -/
theorem means_of_timesVariable (radians : context.unit = .radians) (free : e.dependsOn var = false)
    (derived : (e * symbol var).derivative var = .ok D) (means : e.Means context x)
    (slope : D.Means context z) : z = x := by
  rw [mul_def, derivative_mul] at derived
  rcases bind_eq_ok_iff.1 derived with ⟨de, derivedE, rest⟩
  rcases bind_eq_ok_iff.1 rest with ⟨one, derivedVar, last⟩
  cases last
  rw [derivative_symbol, if_pos rfl] at derivedVar
  cases derivedVar
  rcases means_binary.1 slope with ⟨_, _, left, right, -, rfl⟩
  rcases means_binary.1 left with ⟨p, t, meansDe, meansVar, -, rfl⟩
  rcases means_binary.1 right with ⟨x', q, means', meansOne, -, rfl⟩
  obtain rfl := eq_zero_of_not_dependsOn radians (means_symbol.1 meansVar) free means derivedE meansDe
  obtain rfl := means.unique means'
  obtain rfl := means_ofNat.1 meansOne
  simp only [operationValue, Nat.cast_one]
  ring

/-- A factor without the variable is kept: its own derivative means zero. -/
theorem means_of_factor (radians : context.unit = .radians) (bound : context.get? var = some (real x))
    (free : u.dependsOn var = false) (means : u.Means context a)
    (derived : (u * G).derivative var = .ok D) (slope : D.Means context z)
    (undone : ∀ dG p, G.derivative var = .ok dG → dG.Means context p → p = b) : z = a * b := by
  rw [mul_def, derivative_mul] at derived
  rcases bind_eq_ok_iff.1 derived with ⟨du, derivedU, rest⟩
  rcases bind_eq_ok_iff.1 rest with ⟨dG, derivedG, last⟩
  cases last
  rcases means_binary.1 slope with ⟨_, _, left, right, -, rfl⟩
  rcases means_binary.1 left with ⟨p, g, meansDu, -, -, rfl⟩
  rcases means_binary.1 right with ⟨a', q, means', meansDG, -, rfl⟩
  obtain rfl := eq_zero_of_not_dependsOn radians bound free means derivedU meansDu
  obtain rfl := means.unique means'
  obtain rfl := undone dG q derivedG meansDG
  simp only [operationValue]
  ring

/-! ### Numbers and slopes -/

/-- A number, or a negated one, means its value. -/
theorem Means.eq_of_asNumber? {n : Exact} (means : e.Means context x) (known : e.asNumber? = some n) :
    n = real x := by
  unfold asNumber? at known
  split at known
  · cases known
    exact means_number.1 means
  · cases known
    rcases means_neg.1 means with ⟨y, inner, rfl⟩
    rw [means_number.1 inner, neg_real]
  · cases known

/-- A simplified expression means what the expression means. -/
theorem means_simplify (radians : context.unit = .radians) {result : Expr Exact}
    (done : e.simplify = .ok result) (means : e.Means context x) : result.Means context x := by
  obtain ⟨simplified, settled, rfl⟩ := settle_of_simplify done
  exact (means_settle radians means).1 simplified settled

/-- The slope of a linear expression is the number that its derivative means. -/
theorem slope?_eq_some (radians : context.unit = .radians) {slope : Exact}
    (linear : u.slope? var = .ok (some slope)) (derived : u.derivative var = .ok D)
    (means : D.Means context z) : slope = real z ∧ z ≠ 0 := by
  rw [slope?_eq, derived] at linear
  split at linear
  · next is_var =>
    cases linear
    obtain rfl : u = symbol var := by
      unfold asSymbol? at is_var
      split at is_var
      · cases is_var
        rfl
      · cases is_var
    rw [derivative_symbol, if_pos rfl] at derived
    cases derived
    obtain rfl := means_ofNat.1 means
    exact ⟨rfl, Nat.cast_ne_zero.2 one_ne_zero⟩
  · simp only at linear
    split at linear
    · cases linear
    · next simplified done =>
      rcases Option.filter_eq_some_iff.1 (Except.ok.inj linear) with ⟨known, good⟩
      obtain rfl := (means_simplify radians done means).eq_of_asNumber? known
      refine ⟨rfl, ?_⟩
      rintro rfl
      have zero : (real 0 == (Scalar.ofNat 0 : Exact)) = true :=
        (beq_iff _ _).2 ⟨0, rfl, by rw [ofNat_eq, Nat.cast_zero]⟩
      simp [zero] at good

/-! ### Results that are undone by differentiation -/

/-- Whatever the derivative of the expression means, it is the given number times what the derivative of
    the inner expression means. -/
def Undoes (context : Context Exact) (var : String) (u : Expr Exact) (y : ℝ) (G : Expr Exact) : Prop :=
  ∀ dG z, G.derivative var = .ok dG → dG.Means context z →
    ∃ du slope, u.derivative var = .ok du ∧ du.Means context slope ∧ z = y * slope

/-- Divided by the slope of the inner expression, the result has the given number as its derivative. -/
theorem means_overSlope (radians : context.unit = .radians) {slope : Exact}
    (undoes : Undoes context var u y G) (linear : u.slope? var = .ok (some slope))
    (derived : (G.overSlope slope).derivative var = .ok D) (means : D.Means context z) : z = y := by
  unfold overSlope at derived
  split at derived
  · next one =>
    rcases undoes D z derived means with ⟨du, t, derivedU, meansDu, rfl⟩
    rcases slope?_eq_some radians linear derivedU meansDu with ⟨rfl, -⟩
    rcases (beq_iff _ _).1 one with ⟨q, left, right⟩
    obtain rfl := Exact.real.inj left
    rw [← Exact.real.inj right, Nat.cast_one, mul_one]
  · rw [div_def, derivative_div, if_neg (by simp [dependsOn, symbols])] at derived
    rcases bind_eq_ok_iff.1 derived with ⟨dG, derivedG, last⟩
    cases last
    rcases means_binary.1 means with ⟨p, q, meansG, meansSlope, -, rfl⟩
    rcases undoes dG p derivedG meansG with ⟨du, t, derivedU, meansDu, rfl⟩
    rcases slope?_eq_some radians linear derivedU meansDu with ⟨rfl, nonzero⟩
    obtain rfl := Exact.real.inj (means_number.1 meansSlope)
    exact mul_div_cancel_right₀ y nonzero

/-- The chain rule, read from its result. -/
theorem derivative_apply_means {function : Elementary} {outer : Expr Exact}
    (known : function.derivativeAt? u = some outer)
    (derived : (apply function u).derivative var = .ok D) (means : D.Means context z) :
    ∃ du p slope, u.derivative var = .ok du ∧ outer.Means context p ∧ du.Means context slope ∧
      z = p * slope := by
  rw [derivative_apply, known] at derived
  rcases bind_eq_ok_iff.1 derived with ⟨du, derivedU, last⟩
  cases last
  rcases means_binary.1 means with ⟨p, slope, meansOuter, meansDu, -, rfl⟩
  exact ⟨du, p, slope, derivedU, meansOuter, meansDu, rfl⟩

/-- The power over its own exponent is undone to the power with the exponent less one. -/
theorem undoes_power (free : w.dependsOn var = false) (meansU : u.Means context a)
    (meansW : w.Means context b) : Undoes context var u (a ^ (b - 1)) (u ^ w / w) := by
  intro dG z derived means
  rw [div_def, derivative_div, if_neg (by rw [free]; exact Bool.false_ne_true)] at derived
  rcases bind_eq_ok_iff.1 derived with ⟨dPower, derivedPower, last⟩
  cases last
  rw [pow_def, derivative_pow, if_pos (by rw [free]; rfl)] at derivedPower
  rcases bind_eq_ok_iff.1 derivedPower with ⟨du, derivedU, last⟩
  cases last
  rcases means_binary.1 means with ⟨_, b₁, meansTop, means₁, nonzero, rfl⟩
  rcases means_binary.1 meansTop with ⟨_, slope, meansLeft, meansDu, -, rfl⟩
  rcases means_binary.1 meansLeft with ⟨b₂, _, means₂, meansPower, -, rfl⟩
  rcases means_binary.1 meansPower with ⟨a₁, _, meansBase, meansLess, -, rfl⟩
  rcases means_binary.1 meansLess with ⟨b₃, one, means₃, meansOne, -, rfl⟩
  obtain rfl := means_ofNat.1 meansOne
  obtain rfl := meansU.unique meansBase
  obtain rfl := meansW.unique means₁
  obtain rfl := meansW.unique means₂
  obtain rfl := meansW.unique means₃
  have nonzero : b ≠ 0 := nonzero
  refine ⟨du, slope, derivedU, meansDu, ?_⟩
  simp only [operationValue, Nat.cast_one]
  field_simp

/-- A function is undone to what the table has as its derivative. -/
theorem undoes_apply {function : Elementary} {outer : Expr Exact}
    (known : function.derivativeAt? u = some outer) (value : ∀ p, outer.Means context p → p = y) :
    Undoes context var u y (apply function u) := by
  intro dG z derived means
  rcases derivative_apply_means known derived means with ⟨du, p, slope, derivedU, meansP, meansDu, rfl⟩
  rw [value p meansP]
  exact ⟨du, slope, derivedU, meansDu, rfl⟩

/-- The logarithm is undone to one over its argument. -/
theorem undoes_ln (meansU : u.Means context a) : Undoes context var u (1 / a) (apply .ln u) := by
  refine undoes_apply rfl fun p meansP => ?_
  rcases means_reciprocal.1 meansP with ⟨a', means', -, rfl⟩
  rw [meansU.unique means']

theorem Undoes.neg (undoes : Undoes context var u y G) : Undoes context var u (-y) (-G) := by
  intro dG z derived means
  rw [neg_def, derivative_neg] at derived
  rcases bind_eq_ok_iff.1 derived with ⟨dG', derivedG, last⟩
  cases last
  rcases means_neg.1 means with ⟨q, meansG, rfl⟩
  rcases undoes dG' q derivedG meansG with ⟨du, slope, derivedU, meansDu, rfl⟩
  exact ⟨du, slope, derivedU, meansDu, (neg_mul y slope).symm⟩

theorem Means.eq_functionValue (radians : context.unit = .radians) {function : Elementary}
    (meansU : u.Means context a) (value : (apply function u).Means context y) :
    y = functionValue function a := by
  rcases (means_apply radians).1 value with ⟨a', means', -, value⟩
  rw [meansU.unique means', value]

/-- The argument times its logarithm, less the argument, is undone to the logarithm. -/
theorem undoes_timesLogarithm (radians : context.unit = .radians) (meansU : u.Means context a)
    (nonzero : a ≠ 0) : Undoes context var u (functionValue .ln a) (u * apply .ln u - u) := by
  intro dG z derived means
  rw [sub_def, derivative_sub] at derived
  rcases bind_eq_ok_iff.1 derived with ⟨dProduct, derivedProduct, rest⟩
  rcases bind_eq_ok_iff.1 rest with ⟨du, derivedU, last⟩
  cases last
  rw [mul_def, derivative_mul, derivedU] at derivedProduct
  rcases bind_eq_ok_iff.1 derivedProduct with ⟨_, same, rest⟩
  cases same
  rcases bind_eq_ok_iff.1 rest with ⟨dLog, derivedLog, last⟩
  cases last
  rcases means_binary.1 means with ⟨_, slope, meansSum, meansDu, -, rfl⟩
  rcases means_binary.1 meansSum with ⟨_, _, meansLeft, meansRight, -, rfl⟩
  rcases means_binary.1 meansLeft with ⟨slope₁, l, meansDu₁, meansLog, -, rfl⟩
  rcases means_binary.1 meansRight with ⟨a₁, q, meansU₁, meansDLog, -, rfl⟩
  rcases undoes_ln meansU dLog q derivedLog meansDLog with ⟨_, slope₂, derivedU₂, meansDu₂, rfl⟩
  cases derivedU.symm.trans derivedU₂
  obtain rfl := meansDu.unique meansDu₁
  obtain rfl := meansDu.unique meansDu₂
  obtain rfl := meansU.unique meansU₁
  obtain rfl := meansU.eq_functionValue radians meansLog
  refine ⟨du, slope, derivedU, meansDu, ?_⟩
  simp only [operationValue]
  field_simp
  ring

/-- A power with a constant base, over the logarithm of the base, is undone to the power. -/
theorem undoes_exponential (free : u.dependsOn var = false)
    (depends : v.dependsOn var = true) (meansU : u.Means context a) (meansV : v.Means context b) :
    Undoes context var v (a ^ b) (binary .pow u v / apply .ln u) := by
  intro dG z derived means
  have freeLog : (apply .ln u : Expr Exact).dependsOn var = false := free
  rw [div_def, derivative_div, if_neg (by rw [freeLog]; exact Bool.false_ne_true)] at derived
  rcases bind_eq_ok_iff.1 derived with ⟨dPower, derivedPower, last⟩
  cases last
  rw [derivative_pow, if_neg (by rw [depends]; exact Bool.false_ne_true),
    if_pos (by rw [free]; rfl)] at derivedPower
  rcases bind_eq_ok_iff.1 derivedPower with ⟨dv, derivedV, last⟩
  cases last
  rcases means_binary.1 means with ⟨_, l₁, meansTop, meansLog₁, nonzero, rfl⟩
  rcases means_binary.1 meansTop with ⟨_, slope, meansLeft, meansDv, -, rfl⟩
  rcases means_binary.1 meansLeft with ⟨_, l₂, meansPower, meansLog₂, -, rfl⟩
  rcases means_binary.1 meansPower with ⟨a', b', meansBase, meansExponent, -, rfl⟩
  obtain rfl := meansU.unique meansBase
  obtain rfl := meansV.unique meansExponent
  obtain rfl := meansLog₁.unique meansLog₂
  have nonzero : l₁ ≠ 0 := nonzero
  refine ⟨dv, slope, derivedV, meansDv, ?_⟩
  simp only [operationValue]
  field_simp

/-- The antiderivatives of the table are undone to the functions. -/
theorem undoes_of_antiderivativeAt? (radians : context.unit = .radians) {function : Elementary}
    (known : function.antiderivativeAt? u = some G) (meansU : u.Means context a)
    (domain : Domain function a) : Undoes context var u (functionValue function a) G := by
  cases function with
  | sin =>
    cases known
    have cosine : Undoes context var u (-functionValue .sin a) (apply .cos u) := by
      refine undoes_apply rfl fun p meansP => ?_
      rcases means_neg.1 meansP with ⟨s, meansSine, rfl⟩
      rw [meansU.eq_functionValue radians meansSine]
    rw [← neg_neg (functionValue .sin a)]
    exact cosine.neg
  | cos | exp | sinh | cosh =>
    cases known
    exact undoes_apply rfl fun p => meansU.eq_functionValue radians
  | sqrt =>
    cases known
    have exponent : (number Elementary.threeHalves : Expr Exact).Means context (3 / 2) := by
      refine means_number.2 (realIf_eq_real_iff.2 ⟨?_, ?_⟩)
      · exact Nat.cast_ne_zero.2 two_ne_zero
      · simp [operationValue]
    have undoes : Undoes context var u _ _ := undoes_power rfl meansU exponent
    have root : functionValue .sqrt a = a ^ ((3 : ℝ) / 2 - 1) := by
      change √a = _
      rw [Real.sqrt_eq_rpow]
      norm_num
    rw [root]
    exact undoes
  | ln =>
    cases known
    exact undoes_timesLogarithm radians meansU (ne_of_gt domain)
  | tan | asin | acos | atan | tanh | log10 | abs => cases known

/-! ### Powers and reciprocals -/

theorem raisedExponent_means (means : w.Means context b) (raised : w.raisedExponent.Means context y) :
    y = b + 1 := by
  unfold raisedExponent at raised
  split at raised
  · next n known =>
    rw [means.eq_of_asNumber? known, means_number, ofNat_eq, add_real, Nat.cast_one] at raised
    exact (Exact.real.inj raised).symm
  · rcases means_binary.1 raised with ⟨b', one, means', meansOne, -, rfl⟩
    obtain rfl := means.unique means'
    obtain rfl := means_ofNat.1 meansOne
    rw [operationValue, Nat.cast_one]

theorem raisedExponent_not_dependsOn (free : w.dependsOn var = false) :
    w.raisedExponent.dependsOn var = false := by
  unfold raisedExponent
  split
  · rfl
  · simpa [dependsOn, symbols, ofNat] using free

/-- The antiderivative of a power is undone to the power. -/
theorem undoes_powerAntiderivative (free : w.dependsOn var = false) (meansU : u.Means context a)
    (meansW : w.Means context b) : Undoes context var u (a ^ b) (powerAntiderivative u w) := by
  have raised : Undoes context var u (a ^ b) (u ^ w.raisedExponent / w.raisedExponent) := by
    intro dG z derived means
    have freeRaised := raisedExponent_not_dependsOn free
    -- the derivative is divided by the raised exponent, so that has a meaning
    obtain ⟨c, meansRaised⟩ : ∃ c, w.raisedExponent.Means context c := by
      rw [div_def, derivative_div, if_neg (by rw [freeRaised]; exact Bool.false_ne_true)] at derived
      rcases bind_eq_ok_iff.1 derived with ⟨dPower, -, last⟩
      cases last
      rcases means_binary.1 means with ⟨_, c, -, meansRaised, -⟩
      exact ⟨c, meansRaised⟩
    have undoes := undoes_power freeRaised meansU meansRaised
    rw [raisedExponent_means meansW meansRaised, add_sub_cancel_right] at undoes
    exact undoes dG z derived means
  unfold powerAntiderivative
  split
  · next n known =>
    split
    · next negativeOne =>
      rw [meansW.eq_of_asNumber? known, ofNat_eq, neg_real] at negativeOne
      rcases (beq_iff _ _).1 negativeOne with ⟨q, left, right⟩
      have exponent : b = -1 := by
        rw [Exact.real.inj left, ← Exact.real.inj right, Nat.cast_one]
      rw [exponent, Real.rpow_neg_one, ← one_div]
      exact undoes_ln meansU
    · exact raised
  · exact raised

/-- No name is new in a simplified expression. -/
theorem not_dependsOn_simplify (calls : v.CallFree) (free : v.dependsOn var = false)
    (done : v.simplify = .ok w) : w.dependsOn var = false := by
  have keeps : Rule.Keeps fun _ : Exact => True :=
    ⟨trivial, trivial, fun _ _ => trivial, fun _ _ => trivial⟩
  exact not_dependsOn_of_madeOf (madeOf_simplify keeps done (madeOf_of_not_dependsOn calls free))

/-- Differentiating an antiderivative leads back to the given number: no derivative of an antiderivative of
    the expression means anything else. -/
def LeadsBack (context : Context Exact) (var : String) (e : Expr Exact) (x : ℝ) : Prop :=
  ∀ F D z, e.antiderivative var = .ok F → F.derivative var = .ok D → D.Means context z → z = x

theorem leadsBack_pow (radians : context.unit = .radians) (calls : v.CallFree)
    (means : (binary .pow u v).Means context x) : LeadsBack context var (binary .pow u v) x := by
  intro F D z integrated derived slope
  cases depends : (binary .pow u v).dependsOn var with
  | false =>
    rw [antiderivative_binary_of_not_dependsOn depends] at integrated
    cases integrated
    exact means_of_timesVariable radians depends derived means slope
  | true =>
    rcases means_binary.1 means with ⟨a, b, meansU, meansV, -, rfl⟩
    rw [antiderivative_pow depends] at integrated
    split at integrated
    · next freeV =>
      have freeV : v.dependsOn var = false := Bool.not_eq_true' _ ▸ freeV
      split at integrated
      · cases integrated
      · next w done =>
        rcases bind_eq_ok_iff.1 integrated with ⟨found, linear, last⟩
        cases found with
        | none => cases last
        | some number_ =>
          cases last
          have undoes := undoes_powerAntiderivative (not_dependsOn_simplify calls freeV done) meansU
            (means_simplify radians done meansV)
          exact means_overSlope radians undoes linear derived slope
    · next dependsV =>
      have dependsV : v.dependsOn var = true := by simpa using dependsV
      split at integrated
      · next freeU =>
        rcases bind_eq_ok_iff.1 integrated with ⟨found, linear, last⟩
        cases found with
        | none => cases last
        | some number_ =>
          cases last
          have undoes := undoes_exponential (Bool.not_eq_true' _ ▸ freeU) dependsV meansU
            meansV
          exact means_overSlope radians undoes linear derived slope
      · cases integrated

theorem negatedExponent_means (means : v.Means context b) : v.negatedExponent.Means context (-b) := by
  unfold negatedExponent
  split
  · next n known =>
    rw [means.eq_of_asNumber? known, neg_real]
    exact means_number.2 rfl
  · exact means_neg.2 ⟨b, means, rfl⟩

/-- One over a power is the power with the negative exponent, also where the base is zero or negative. -/
theorem power_neg (domain : PowerDomain a b) (nonzero : a ^ b ≠ 0) :
    PowerDomain a (-b) ∧ a ^ (-b) = 1 / a ^ b := by
  rcases domain with positive | ⟨rfl, nonnegative⟩ | ⟨negative, n, rfl⟩
  · exact ⟨.inl positive, by rw [Real.rpow_neg positive.le, one_div]⟩
  · -- a power of zero that is not zero has the exponent zero
    rcases eq_or_lt_of_le nonnegative with rfl | above
    · rw [neg_zero, Real.rpow_zero, div_one]
      exact ⟨.inr (.inl ⟨rfl, le_refl 0⟩), rfl⟩
    · exact absurd (Real.zero_rpow (ne_of_gt above)) nonzero
  · refine ⟨.inr (.inr ⟨negative, -n, by push_cast; rfl⟩), ?_⟩
    rw [← Int.cast_neg, Real.rpow_intCast, Real.rpow_intCast, zpow_neg, one_div]

/-- The derivative of the antiderivative of a reciprocal means the reciprocal. -/
theorem means_of_reciprocal (radians : context.unit = .radians) {numerator : Expr Exact}
    (calls : v.CallFree) (found : reciprocal numerator v var = .ok G)
    (derived : G.derivative var = .ok D) (means : v.Means context y) (nonzero : y ≠ 0)
    (slope : D.Means context z) : z = 1 / y := by
  by_cases power : ∃ base exponent, v = binary .pow base exponent ∧ exponent.dependsOn var = false
  · rcases power with ⟨base, exponent, rfl, free⟩
    rw [reciprocal_pow numerator free] at found
    rcases means_binary.1 means with ⟨a, b, meansBase, meansExponent, domain, rfl⟩
    rcases power_neg domain nonzero with ⟨domain', value⟩
    have means' : (binary .pow base exponent.negatedExponent).Means context (1 / a ^ b) :=
      means_binary.2 ⟨a, -b, meansBase, negatedExponent_means meansExponent, domain', value⟩
    have calls' : exponent.negatedExponent.CallFree :=
      Nat.le_zero.1 (Nat.le_trans (callDepth_negatedExponent exponent) (Nat.le_of_eq calls.of_binary.2))
    exact leadsBack_pow radians calls' means' G D z found derived slope
  · have other (base exponent : Expr Exact) (same : v = binary .pow base exponent) :
        exponent.dependsOn var = true := by
      by_contra free
      exact power ⟨base, exponent, same, Bool.eq_false_iff.2 free⟩
    rw [reciprocal_of_not_pow numerator other] at found
    rcases bind_eq_ok_iff.1 found with ⟨known, linear, last⟩
    cases known with
    | none => cases last
    | some number_ =>
      cases last
      exact means_overSlope radians (undoes_ln means) linear derived slope

/-! ### Antiderivatives -/

theorem leadsBack_symbol {name : String} (radians : context.unit = .radians)
    (means : (symbol name).Means context x) : LeadsBack context var (symbol name) x := by
  intro F D z integrated derived slope
  rw [antiderivative_symbol] at integrated
  split at integrated
  · next same =>
    cases integrated
    obtain rfl := same
    have two : (.ofNat 2 : Expr Exact).Means context ((2 : ℕ) : ℝ) := means_ofNat.2 rfl
    have undoes : Undoes context name (symbol name) _ _ := undoes_power rfl means two
    rcases undoes D z derived slope with ⟨du, t, derivedVar, meansVar, rfl⟩
    rw [derivative_symbol, if_pos rfl] at derivedVar
    cases derivedVar
    obtain rfl := means_ofNat.1 meansVar
    norm_num
  · next other =>
    cases integrated
    have free : (symbol name : Expr Exact).dependsOn var = false := by
      simp [dependsOn, symbols, Ne.symm other]
    exact means_of_timesVariable radians free derived means slope

theorem leadsBack_apply {function : Elementary} (radians : context.unit = .radians)
    (means : (apply function u).Means context x) : LeadsBack context var (apply function u) x := by
  intro F D z integrated derived slope
  rw [antiderivative_apply] at integrated
  split at integrated
  · next free =>
    cases integrated
    exact means_of_timesVariable radians (Bool.not_eq_true' _ ▸ free) derived means slope
  · split at integrated
    · cases integrated
    · next outer known =>
      rcases bind_eq_ok_iff.1 integrated with ⟨found, linear, last⟩
      cases found with
      | none => cases last
      | some number_ =>
        cases last
        rcases (means_apply radians).1 means with ⟨a, meansU, domain, rfl⟩
        have undoes : Undoes context var u _ outer :=
          undoes_of_antiderivativeAt? radians known meansU domain
        exact means_overSlope radians undoes linear derived slope

theorem LeadsBack.additive {op : BinaryOp} (additive : op = .add ∨ op = .sub)
    (depends : (binary op u v).dependsOn var = true) (backU : LeadsBack context var u a)
    (backV : LeadsBack context var v b) :
    LeadsBack context var (binary op u v) (operationValue op a b) := by
  intro F D z integrated derived slope
  rw [antiderivative_additive additive depends] at integrated
  rcases bind_eq_ok_iff.1 integrated with ⟨f, integratedU, rest⟩
  rcases bind_eq_ok_iff.1 rest with ⟨g, integratedV, last⟩
  cases last
  rw [derivative_additive additive] at derived
  rcases bind_eq_ok_iff.1 derived with ⟨df, derivedF, rest⟩
  rcases bind_eq_ok_iff.1 rest with ⟨dg, derivedG, last⟩
  cases last
  rcases means_binary.1 slope with ⟨p, q, meansF, meansG, -, rfl⟩
  rw [backU f df p integratedU derivedF meansF, backV g dg q integratedV derivedG meansG]

section Factors

variable (radians : context.unit = .radians) (bound : context.get? var = some (real x))
include radians bound

theorem LeadsBack.mul (depends : (binary .mul u v).dependsOn var = true) (meansU : u.Means context a)
    (meansV : v.Means context b) (backU : LeadsBack context var u a)
    (backV : LeadsBack context var v b) : LeadsBack context var (binary .mul u v) (a * b) := by
  intro F D z integrated derived slope
  rw [antiderivative_mul depends] at integrated
  split at integrated
  · next free =>
    rcases bind_eq_ok_iff.1 integrated with ⟨g, integratedV, last⟩
    cases last
    exact means_of_factor radians bound (Bool.not_eq_true' _ ▸ free) meansU derived slope
      fun d p => backV g d p integratedV
  · split at integrated
    · next free =>
      rcases bind_eq_ok_iff.1 integrated with ⟨f, integratedU, last⟩
      cases last
      rw [means_of_factor radians bound (Bool.not_eq_true' _ ▸ free) meansV derived slope
        fun d p => backU f d p integratedU]
      exact mul_comm b a
    · cases integrated

theorem LeadsBack.div (depends : (binary .div u v).dependsOn var = true) (calls : v.CallFree)
    (meansU : u.Means context a) (meansV : v.Means context b) (nonzero : b ≠ 0)
    (backU : LeadsBack context var u a) : LeadsBack context var (binary .div u v) (a / b) := by
  intro F D z integrated derived slope
  rw [antiderivative_div depends] at integrated
  split at integrated
  · next free =>
    rcases bind_eq_ok_iff.1 integrated with ⟨f, integratedU, last⟩
    cases last
    have free : v.dependsOn var = false := Bool.not_eq_true' _ ▸ free
    rw [div_def, derivative_div, if_neg (by rw [free]; exact Bool.false_ne_true)] at derived
    rcases bind_eq_ok_iff.1 derived with ⟨df, derivedF, last⟩
    cases last
    rcases means_binary.1 slope with ⟨p, q, meansF, meansV', -, rfl⟩
    rw [backU f df p integratedU derivedF meansF, meansV.unique meansV']
    rfl
  · split at integrated
    · next free =>
      rcases bind_eq_ok_iff.1 integrated with ⟨g, found, last⟩
      have undone (d : Expr Exact) (p : ℝ) (derivedG : g.derivative var = .ok d)
          (meansG : d.Means context p) : p = 1 / b :=
        means_of_reciprocal radians calls found derivedG meansV nonzero meansG
      cases last
      split at derived
      · next one =>
        rw [undone D z derived slope, meansU.eq_of_isNat one, Nat.cast_one]
      · rw [means_of_factor radians bound (Bool.not_eq_true' _ ▸ free) meansU derived slope undone]
        exact mul_one_div a b
    · cases integrated

end Factors

/-- Where an expression without calls means a number, differentiating its antiderivative leads back to that
    number. -/
theorem leadsBack_of_means (radians : context.unit = .radians) :
    ∀ {e : Expr Exact} {x : ℝ}, e.CallFree → e.Means context x → LeadsBack context var e x
  | number value, x, _, means => by
      intro F D z integrated derived slope
      cases (antiderivative_number value var).symm.trans integrated
      exact means_of_timesVariable radians rfl derived means slope
  | symbol name, x, _, means => leadsBack_symbol radians means
  | neg u, x, calls, means => by
      intro F D z integrated derived slope
      rw [antiderivative_neg] at integrated
      split at integrated
      · next free =>
        cases integrated
        exact means_of_timesVariable radians (Bool.not_eq_true' _ ▸ free) derived means slope
      · rcases bind_eq_ok_iff.1 integrated with ⟨G, integratedU, last⟩
        cases last
        rw [neg_def, derivative_neg] at derived
        rcases bind_eq_ok_iff.1 derived with ⟨dG, derivedG, last⟩
        cases last
        rcases means_neg.1 means with ⟨a, meansU, rfl⟩
        rcases means_neg.1 slope with ⟨p, meansG, rfl⟩
        rw [leadsBack_of_means radians (e := u) calls meansU G dG p integratedU derivedG meansG]
  | apply function u, x, _, means => leadsBack_apply radians means
  | binary op u v, x, calls, means => by
      rcases calls.of_binary with ⟨callsU, callsV⟩
      rcases means_binary.1 means with ⟨a, b, meansU, meansV, domain, rfl⟩
      have backU : LeadsBack context var u a := leadsBack_of_means radians callsU meansU
      have backV : LeadsBack context var v b := leadsBack_of_means radians callsV meansV
      cases depends : (binary op u v).dependsOn var with
      | false =>
        intro F D z integrated derived slope
        rw [antiderivative_binary_of_not_dependsOn depends] at integrated
        cases integrated
        exact means_of_timesVariable radians depends derived means slope
      | true =>
        rcases exists_value_of_dependsOn radians means depends with ⟨t, bound⟩
        cases op with
        | add | sub => exact .additive (by simp) depends backU backV
        | mul => exact .mul radians bound depends meansU meansV backU backV
        | div => exact .div radians bound depends callsV meansU meansV domain backU
        | pow => exact leadsBack_pow radians callsV means
  | call _ _, _, calls, _ => nomatch calls

/-- Differentiation undoes integration. The derivative of an antiderivative of an expression without calls
    has the value of the expression wherever both are defined with all their parts. -/
theorem derivative_antiderivative_agrees (e F D : Expr Exact) (var : String) (calls : e.CallFree)
    (integrated : e.antiderivative var = .ok F) (derived : F.derivative var = .ok D)
    (context : Context Exact) (radians : context.unit = .radians)
    (defined : e.DefinedThroughout context) (defined' : D.DefinedThroughout context) :
    ∃ y, e.Means context y ∧ D.Means context y := by
  rcases (definedThroughout_iff radians e).1 defined with ⟨y, means⟩
  rcases (definedThroughout_iff radians D).1 defined' with ⟨z, slope⟩
  obtain rfl := leadsBack_of_means radians calls means F D z integrated derived slope
  exact ⟨z, means, slope⟩

/-- One over a number below zero: the antiderivative is the logarithm, which is not defined there, but its
    derivative is. -/
theorem derivative_antiderivative_agrees_reciprocal :
    ∃ y, (ofNat 1 / symbol "x" : Expr Exact).Means (Context.empty.set "x" (real (-2))) y ∧
      (ofNat 1 / symbol "x" * ofNat 1 : Expr Exact).Means (Context.empty.set "x" (real (-2))) y := by
  have quotient : (ofNat 1 / symbol "x" : Expr Exact).Means (Context.empty.set "x" (real (-2)))
      (1 / -2) :=
    means_reciprocal.2 ⟨-2, means_symbol.2 rfl, by norm_num, rfl⟩
  refine derivative_antiderivative_agrees (ofNat 1 / symbol "x") (apply .ln (symbol "x")) _ "x"
    (by rw [CallFree]; rfl) ?_ ?_ _ rfl ?_ ?_
  · have one : (Scalar.ofNat 1 == (Scalar.ofNat 1 : Exact)) = true := (beq_iff _ _).2 ⟨_, rfl, rfl⟩
    rw [div_def, antiderivative_div rfl, reciprocal_of_not_pow _ (by nofun), slope?_eq]
    simp only [asSymbol?, if_true]
    change Except.ok (if (Scalar.ofNat 1 == (Scalar.ofNat 1 : Exact)) = true then
      (apply .ln (symbol "x")).overSlope (Scalar.ofNat 1) else _) = _
    rw [if_pos one, overSlope, if_pos one]
  · rw [derivative_apply, derivative_symbol]
    rfl
  · exact (definedThroughout_iff rfl _).2 ⟨_, quotient⟩
  · exact (definedThroughout_iff rfl _).2
      ⟨_, means_binary.2 ⟨_, (1 : ℕ), quotient, means_ofNat.2 rfl, trivial, rfl⟩⟩

end SymbolicCalculus.Expr
