/-
Module: SymbolicCalculus.Proofs.Calculus.Derivative
Layer: Proofs
Purpose: Symbolic derivatives are derivatives. An expression without calls and without absolute values has a
  symbolic derivative, and over exact numbers what that means at a point is the slope of the expression
  there, as a function of the variable.
Main exports: Expr.CallFree, Expr.AbsFree, Expr.exists_derivative, Elementary.hasDerivAt_of_derivativeAt?,
  Expr.DefinedNear, Expr.IsSlope, Expr.isSlope_of_derivative, Expr.derivative_exists_and_hasDerivAt
-/
import Mathlib
import SymbolicCalculus.Calculus.Equations
import SymbolicCalculus.Proofs.Exact.Meaning
import SymbolicCalculus.Proofs.Success

namespace SymbolicCalculus

open Exact
open scoped Topology

namespace Expr

/-! ### What can be differentiated -/

section Existence

variable {α : Type}

/-- No operation of the expression is still to be carried out. -/
def CallFree (e : Expr α) : Prop := e.callDepth = 0

/-- No absolute value is taken inside the expression. -/
def AbsFree (e : Expr α) : Prop := ∀ operand, apply .abs operand ∉ e.postOrder

theorem AbsFree.of_neg {operand : Expr α} (free : (neg operand).AbsFree) : operand.AbsFree :=
  fun inner mem => free inner (List.mem_append_left _ mem)

theorem AbsFree.of_apply {function : Elementary} {operand : Expr α}
    (free : (apply function operand).AbsFree) : function ≠ .abs ∧ operand.AbsFree := by
  constructor
  · rintro rfl
    exact free operand (List.mem_append_right _ (List.mem_singleton_self _))
  · intro inner mem
    exact free inner (List.mem_append_left _ mem)

theorem AbsFree.of_binary {op : BinaryOp} {left right : Expr α} (free : (binary op left right).AbsFree) :
    left.AbsFree ∧ right.AbsFree := by
  constructor
  · intro inner mem
    exact free inner (List.mem_append_left _ (List.mem_append_left _ mem))
  · intro inner mem
    exact free inner (List.mem_append_left _ (List.mem_append_right _ mem))

theorem CallFree.of_binary {op : BinaryOp} {left right : Expr α}
    (free : (binary op left right).CallFree) : left.CallFree ∧ right.CallFree := by
  have none_ : max left.callDepth right.callDepth = 0 := free
  exact Nat.max_eq_zero_iff.1 none_

variable [Scalar α]

/-- Every function but the absolute value has a derivative in the table. -/
theorem exists_derivativeAt? {function : Elementary} (other : function ≠ .abs) (u : Expr α) :
    ∃ outer, function.derivativeAt? u = some outer := by
  cases function with
  | abs => exact absurd rfl other
  | _ => exact ⟨_, rfl⟩

/-- An expression without calls and absolute values has a symbolic derivative by every variable. -/
theorem exists_derivative (var : String) :
    ∀ {e : Expr α}, e.CallFree → e.AbsFree → ∃ d, e.derivative var = .ok d
  | number value, _, _ => ⟨_, derivative_number value var⟩
  | symbol name, _, _ => by
      rw [derivative_symbol]
      split
      · exact ⟨_, rfl⟩
      · exact ⟨_, rfl⟩
  | neg operand, calls, abs => by
      rcases exists_derivative var (e := operand) calls abs.of_neg with ⟨du, hu⟩
      rw [derivative_neg, hu]
      exact ⟨_, rfl⟩
  | apply function operand, calls, abs => by
      rcases abs.of_apply with ⟨other, abs⟩
      rcases exists_derivativeAt? other operand with ⟨outer, known⟩
      rcases exists_derivative var (e := operand) calls abs with ⟨du, hu⟩
      rw [derivative_apply, known, hu]
      exact ⟨_, rfl⟩
  | binary op left right, calls, abs => by
      rcases calls.of_binary with ⟨callsLeft, callsRight⟩
      rcases abs.of_binary with ⟨absLeft, absRight⟩
      rcases exists_derivative var callsLeft absLeft with ⟨du, hu⟩
      rcases exists_derivative var callsRight absRight with ⟨dv, hv⟩
      cases op with
      | add =>
        rw [derivative_add, hu, hv]
        exact ⟨_, rfl⟩
      | sub =>
        rw [derivative_sub, hu, hv]
        exact ⟨_, rfl⟩
      | mul =>
        rw [derivative_mul, hu, hv]
        exact ⟨_, rfl⟩
      | div =>
        rw [derivative_div, hu, hv]
        split
        · exact ⟨_, rfl⟩
        · exact ⟨_, rfl⟩
      | pow =>
        rw [derivative_pow, hu, hv]
        split
        · exact ⟨_, rfl⟩
        · split
          · exact ⟨_, rfl⟩
          · exact ⟨_, rfl⟩
  | call name arguments, calls, _ => nomatch calls

end Existence

variable {context : Context Exact} {var : String} {x y z : ℝ}

/-! ### What the parts of derivatives mean -/

theorem means_square {u : Expr Exact} :
    (Elementary.square u).Means context z ↔ ∃ y, u.Means context y ∧ y ^ 2 = z := by
  rw [Elementary.square, pow_def, means_binary]
  constructor
  · rintro ⟨y, two, means, meansTwo, -, value⟩
    obtain rfl := means_ofNat.1 meansTwo
    exact ⟨y, means, (Real.rpow_natCast y 2).symm.trans value⟩
  · rintro ⟨y, means, value⟩
    have whole : PowerDomain y (2 : ℕ) := by
      rcases lt_trichotomy y 0 with negative | zero | positive
      · exact .inr (.inr ⟨negative, 2, rfl⟩)
      · exact .inr (.inl ⟨zero, Nat.cast_nonneg 2⟩)
      · exact .inl positive
    exact ⟨y, (2 : ℕ), means, means_ofNat.2 rfl, whole, (Real.rpow_natCast y 2).trans value⟩

theorem means_reciprocal {u : Expr Exact} :
    ((ofNat 1 : Expr Exact) / u).Means context z ↔ ∃ y, u.Means context y ∧ y ≠ 0 ∧ 1 / y = z := by
  rw [div_def, means_binary]
  constructor
  · rintro ⟨one, y, meansOne, means, nonzero, value⟩
    obtain rfl := means_ofNat.1 meansOne
    rw [Nat.cast_one] at value
    exact ⟨y, means, nonzero, value⟩
  · rintro ⟨y, means, nonzero, value⟩
    refine ⟨(1 : ℕ), y, means_ofNat.2 rfl, means, nonzero, ?_⟩
    rw [Nat.cast_one]
    exact value

/-- What is under the root in the derivatives of the inverse sine and the inverse cosine. -/
theorem means_rootOfCircle (radians : context.unit = .radians) {u : Expr Exact} (means : u.Means context y) :
    (apply .sqrt ((ofNat 1 : Expr Exact) - Elementary.square u)).Means context z ↔
      0 ≤ 1 - y ^ 2 ∧ √(1 - y ^ 2) = z := by
  have inside {w : ℝ} :
      ((ofNat 1 : Expr Exact) - Elementary.square u).Means context w ↔ 1 - y ^ 2 = w := by
    rw [sub_def, means_binary]
    constructor
    · rintro ⟨one, square, meansOne, meansSquare, -, value⟩
      obtain rfl := means_ofNat.1 meansOne
      rcases means_square.1 meansSquare with ⟨y', means', rfl⟩
      rw [means.unique means', ← value, Nat.cast_one]
      rfl
    · rintro rfl
      refine ⟨(1 : ℕ), y ^ 2, means_ofNat.2 rfl, means_square.2 ⟨y, means, rfl⟩, trivial, ?_⟩
      rw [Nat.cast_one]
      rfl
  rw [means_apply radians]
  constructor
  · rintro ⟨w, meansInside, domain, value⟩
    obtain rfl := inside.1 meansInside
    exact ⟨domain, value⟩
  · rintro ⟨domain, value⟩
    exact ⟨_, inside.2 rfl, domain, value⟩

end Expr

open SymbolicCalculus.Expr

variable {context : Context Exact} {var : String} {x y z : ℝ}

/-! ### The table of derivatives -/

theorem ne_one_of_root {y : ℝ} (nonzero : √(1 - y ^ 2) ≠ 0) : y ≠ -1 ∧ y ≠ 1 := by
  constructor
  · rintro rfl
    norm_num at nonzero
  · rintro rfl
    norm_num at nonzero

theorem hasDerivAt_tanh (y : ℝ) : HasDerivAt Real.tanh (1 / Real.cosh y ^ 2) y := by
  have quotient := (Real.hasDerivAt_sinh y).div (Real.hasDerivAt_cosh y) (Real.cosh_pos y).ne'
  have same : Real.tanh = fun t => Real.sinh t / Real.cosh t := funext Real.tanh_eq_sinh_div_cosh
  rw [same]
  refine quotient.congr_deriv ?_
  rw [← Real.cosh_sq_sub_sinh_sq y]
  ring

/-- What the table gives for a function means the slope of the function. -/
theorem Elementary.hasDerivAt_of_derivativeAt? (radians : context.unit = .radians)
    {function : Elementary} {u outer : Expr Exact} (known : function.derivativeAt? u = some outer)
    (inner : u.Means context y) (domain : Domain function y) (means : outer.Means context z) :
    HasDerivAt (functionValue function) z y := by
  have applied {g : Elementary} {w : ℝ} (value : (apply g u).Means context w) :
      functionValue g y = w := by
    rcases (means_apply radians).1 value with ⟨y', means', -, value⟩
    rw [inner.unique means', value]
  cases function with
  | sin =>
    cases known
    obtain rfl := applied means
    exact Real.hasDerivAt_sin y
  | cos =>
    cases known
    rcases means_neg.1 means with ⟨w, meansSine, rfl⟩
    obtain rfl := applied meansSine
    exact Real.hasDerivAt_cos y
  | tan =>
    cases known
    rcases means_reciprocal.1 means with ⟨w, meansSquare, -, rfl⟩
    rcases means_square.1 meansSquare with ⟨c, meansCosine, rfl⟩
    obtain rfl := applied meansCosine
    exact Real.hasDerivAt_tan domain
  | asin =>
    cases known
    -- the root below the line is not zero, so the argument is at neither end of the domain
    rcases means_reciprocal.1 means with ⟨w, meansRoot, nonzero, rfl⟩
    rcases (means_rootOfCircle radians inner).1 meansRoot with ⟨-, rfl⟩
    rcases ne_one_of_root nonzero with ⟨low, high⟩
    exact Real.hasDerivAt_arcsin low high
  | acos =>
    cases known
    rcases means_neg.1 means with ⟨v, meansQuotient, rfl⟩
    rcases means_reciprocal.1 meansQuotient with ⟨w, meansRoot, nonzero, rfl⟩
    rcases (means_rootOfCircle radians inner).1 meansRoot with ⟨-, rfl⟩
    rcases ne_one_of_root nonzero with ⟨low, high⟩
    exact Real.hasDerivAt_arccos low high
  | atan =>
    cases known
    rcases means_reciprocal.1 means with ⟨w, meansSum, -, rfl⟩
    rcases means_binary.1 meansSum with ⟨one, square, meansOne, meansSquare, -, rfl⟩
    obtain rfl := means_ofNat.1 meansOne
    rcases means_square.1 meansSquare with ⟨y', means', rfl⟩
    obtain rfl := inner.unique means'
    refine (Real.hasDerivAt_arctan y).congr_deriv ?_
    rw [Nat.cast_one]
    rfl
  | sinh =>
    cases known
    obtain rfl := applied means
    exact Real.hasDerivAt_sinh y
  | cosh =>
    cases known
    obtain rfl := applied means
    exact Real.hasDerivAt_cosh y
  | tanh =>
    cases known
    rcases means_reciprocal.1 means with ⟨w, meansSquare, -, rfl⟩
    rcases means_square.1 meansSquare with ⟨c, meansCosine, rfl⟩
    obtain rfl := applied meansCosine
    exact hasDerivAt_tanh y
  | exp =>
    cases known
    obtain rfl := applied means
    exact Real.hasDerivAt_exp y
  | ln =>
    cases known
    rcases means_reciprocal.1 means with ⟨y', means', nonzero, rfl⟩
    obtain rfl := inner.unique means'
    rw [one_div]
    exact Real.hasDerivAt_log nonzero
  | log10 =>
    cases known
    rcases means_reciprocal.1 means with ⟨w, meansProduct, nonzero, rfl⟩
    rcases means_binary.1 meansProduct with ⟨y', l, means', meansLog, -, rfl⟩
    obtain rfl := inner.unique means'
    rcases (means_apply radians).1 meansLog with ⟨ten, meansTen, -, rfl⟩
    obtain rfl := means_ofNat.1 meansTen
    have logarithm := (Real.hasDerivAt_log domain.ne').div_const (Real.log 10)
    refine logarithm.congr_deriv ?_
    change y⁻¹ / Real.log 10 = 1 / (y * Real.log (10 : ℕ))
    rw [Nat.cast_ofNat, one_div, mul_inv, div_eq_mul_inv]
  | sqrt =>
    cases known
    -- at zero the root has no slope, but there the table divides by zero
    rcases means_reciprocal.1 means with ⟨w, meansProduct, nonzero, rfl⟩
    rcases means_binary.1 meansProduct with ⟨two, r, meansTwo, meansRoot, -, rfl⟩
    obtain rfl := means_ofNat.1 meansTwo
    obtain rfl := applied meansRoot
    have away : y ≠ 0 := by
      rintro rfl
      exact nonzero (mul_eq_zero_of_right _ Real.sqrt_zero)
    refine (Real.hasDerivAt_sqrt away).congr_deriv ?_
    change 1 / (2 * √y) = 1 / ((2 : ℕ) * √y)
    rw [Nat.cast_ofNat]
  | abs => cases known

namespace Expr

/-! ### Expressions near a point -/

/-- The expression means a number whenever the variable has a value near the given one. -/
def DefinedNear (context : Context Exact) (var : String) (x : ℝ) (e : Expr Exact) : Prop :=
  ∀ᶠ t in 𝓝 x, ∃ z, e.Means (context.set var (real t)) z

/-- At the point itself the expression means the value that it has there. -/
theorem DefinedNear.means {e : Expr Exact} (near : DefinedNear context var x e)
    (bound : context.get? var = some (real x)) :
    e.Means context (e.along context var x) := by
  rcases near.self_of_nhds with ⟨z, means⟩
  rw [means.along_eq]
  exact (means_set_self bound).1 means

/-- An expression without the variable has the same value everywhere. -/
theorem along_of_not_dependsOn {e : Expr Exact} (free : e.dependsOn var = false)
    (means : e.Means context z) : e.along context var = fun _ => z :=
  funext fun _ => ((means_set_of_not_dependsOn free _).2 means).along_eq

theorem DefinedNear.of_neg {operand : Expr Exact} (near : DefinedNear context var x (neg operand)) :
    DefinedNear context var x operand ∧
      (neg operand).along context var =ᶠ[𝓝 x] fun t => -operand.along context var t := by
  constructor
  · filter_upwards [near] with t defined
    rcases defined with ⟨z, means⟩
    rcases means_neg.1 means with ⟨y, inner, -⟩
    exact ⟨y, inner⟩
  · filter_upwards [near] with t defined
    rcases defined with ⟨z, means⟩
    rcases means_neg.1 means with ⟨y, inner, value⟩
    rw [means.along_eq, inner.along_eq, value]

theorem DefinedNear.of_apply (radians : context.unit = .radians) {function : Elementary}
    {operand : Expr Exact} (near : DefinedNear context var x (apply function operand)) :
    DefinedNear context var x operand ∧
      (apply function operand).along context var =ᶠ[𝓝 x]
        fun t => functionValue function (operand.along context var t) := by
  have radians' (t : ℝ) : (context.set var (real t)).unit = .radians := radians
  constructor
  · filter_upwards [near] with t defined
    rcases defined with ⟨z, means⟩
    rcases (means_apply (radians' t)).1 means with ⟨y, inner, -⟩
    exact ⟨y, inner⟩
  · filter_upwards [near] with t defined
    rcases defined with ⟨z, means⟩
    rcases (means_apply (radians' t)).1 means with ⟨y, inner, -, value⟩
    rw [means.along_eq, inner.along_eq, value]

theorem DefinedNear.of_binary {op : BinaryOp} {u v : Expr Exact}
    (near : DefinedNear context var x (binary op u v)) :
    DefinedNear context var x u ∧ DefinedNear context var x v ∧
      (binary op u v).along context var =ᶠ[𝓝 x]
        fun t => operationValue op (u.along context var t) (v.along context var t) := by
  refine ⟨?_, ?_, ?_⟩
  · filter_upwards [near] with t defined
    rcases defined with ⟨z, means⟩
    rcases means_binary.1 means with ⟨y, _, left, -⟩
    exact ⟨y, left⟩
  · filter_upwards [near] with t defined
    rcases defined with ⟨z, means⟩
    rcases means_binary.1 means with ⟨_, y, -, right, -⟩
    exact ⟨y, right⟩
  · filter_upwards [near] with t defined
    rcases defined with ⟨z, means⟩
    rcases means_binary.1 means with ⟨a, b, left, right, -, value⟩
    rw [means.along_eq, left.along_eq, right.along_eq, value]

/-! ### The rules for powers

In each of them what the derivative means settles where the base may be zero or negative. -/

section Powers

variable {f g : ℝ → ℝ} {a b c : ℝ}

/-- The derivative of a power with a constant exponent contains the power with the exponent less one. That
    this exists is what makes the power differentiable. -/
theorem hasDerivAt_power (slope : HasDerivAt f a x) (domain : PowerDomain (f x) (c - 1)) :
    HasDerivAt (fun t => f t ^ c) (c * f x ^ (c - 1) * a) x := by
  have smooth : f x ≠ 0 ∨ 1 ≤ c := by
    rcases domain with positive | ⟨-, exponent⟩ | ⟨negative, -⟩
    · exact .inl positive.ne'
    · exact .inr (sub_nonneg.1 exponent)
    · exact .inl negative.ne
  refine (slope.rpow_const smooth).congr_deriv ?_
  ring

theorem hasDerivAt_exponential (slope : HasDerivAt g b x) (positive : 0 < c) :
    HasDerivAt (fun t => c ^ g t) (c ^ g x * Real.log c * b) x := by
  refine (slope.const_rpow positive).congr_deriv ?_
  ring

theorem hasDerivAt_generalPower (slope : HasDerivAt f a x) (slope' : HasDerivAt g b x)
    (positive : 0 < f x) :
    HasDerivAt (fun t => f t ^ g t) (f x ^ g x * (b * Real.log (f x) + g x * a / f x)) x := by
  refine (slope.rpow slope' positive).congr_deriv ?_
  rw [Real.rpow_sub_one positive.ne']
  ring

end Powers

/-! ### The rules of differentiation -/

/-- If the one expression means anything at the point, it means the slope of the other one there. -/
def IsSlope (context : Context Exact) (var : String) (x : ℝ) (d e : Expr Exact) : Prop :=
  ∀ z, d.Means context z → HasDerivAt (e.along context var) z x

section Rules

variable {u v du dv : Expr Exact}

/-- An expression without the variable has the slope zero. -/
theorem isSlope_zero (bound : context.get? var = some (real x)) (free : u.dependsOn var = false)
    (near : DefinedNear context var x u) : IsSlope context var x (.ofNat 0) u := by
  intro z means
  obtain rfl := means_ofNat.1 means
  rw [along_of_not_dependsOn free (near.means bound), Nat.cast_zero]
  exact hasDerivAt_const x _

/-- The variable has the slope one. -/
theorem isSlope_one : IsSlope context var x (.ofNat 1) (symbol var) := by
  intro z means
  obtain rfl := means_ofNat.1 means
  have identity : (symbol var).along context var = id := by
    funext t
    refine Means.along_eq (means_symbol.2 ?_)
    rw [Context.get?_set, if_pos rfl]
    rfl
  rw [identity, Nat.cast_one]
  exact hasDerivAt_id x

theorem IsSlope.neg (slope : IsSlope context var x du u) (near : DefinedNear context var x (.neg u)) :
    IsSlope context var x (-du) (.neg u) := by
  intro z means
  rcases near.of_neg with ⟨nearU, same⟩
  rcases means_neg.1 means with ⟨a, meansU, rfl⟩
  exact (slope a meansU).neg.congr_of_eventuallyEq same

/-- The chain rule. -/
theorem IsSlope.chain (radians : context.unit = .radians) (bound : context.get? var = some (real x))
    (slope : IsSlope context var x du u) {function : Elementary} {outer : Expr Exact}
    (known : function.derivativeAt? u = some outer) (near : DefinedNear context var x (apply function u)) :
    IsSlope context var x (outer * du) (apply function u) := by
  intro z means
  rcases near.of_apply radians with ⟨nearU, same⟩
  rcases means_binary.1 means with ⟨o, a, meansOuter, meansU, -, rfl⟩
  rcases (means_apply radians).1 (near.means bound) with ⟨y, inner, domain, -⟩
  obtain rfl := inner.unique (nearU.means bound)
  have outerSlope := Elementary.hasDerivAt_of_derivativeAt? radians known inner domain meansOuter
  exact (outerSlope.comp x (slope a meansU)).congr_of_eventuallyEq same

theorem IsSlope.add (slope : IsSlope context var x du u) (slope' : IsSlope context var x dv v)
    (near : DefinedNear context var x (binary .add u v)) :
    IsSlope context var x (du + dv) (binary .add u v) := by
  intro z means
  rcases near.of_binary with ⟨-, -, same⟩
  rcases means_binary.1 means with ⟨a, b, meansU, meansV, -, rfl⟩
  exact ((slope a meansU).add (slope' b meansV)).congr_of_eventuallyEq same

theorem IsSlope.sub (slope : IsSlope context var x du u) (slope' : IsSlope context var x dv v)
    (near : DefinedNear context var x (binary .sub u v)) :
    IsSlope context var x (du - dv) (binary .sub u v) := by
  intro z means
  rcases near.of_binary with ⟨-, -, same⟩
  rcases means_binary.1 means with ⟨a, b, meansU, meansV, -, rfl⟩
  exact ((slope a meansU).sub (slope' b meansV)).congr_of_eventuallyEq same

/-- A denominator without the variable is a factor. -/
theorem IsSlope.div_const (slope : IsSlope context var x du u) (free : v.dependsOn var = false)
    (near : DefinedNear context var x (binary .div u v)) :
    IsSlope context var x (du / v) (binary .div u v) := by
  intro z means
  rcases near.of_binary with ⟨-, -, same⟩
  rcases means_binary.1 means with ⟨a, c, meansU, meansV, -, rfl⟩
  rw [along_of_not_dependsOn free meansV] at same
  exact ((slope a meansU).div_const c).congr_of_eventuallyEq same

variable (radians : context.unit = .radians) (bound : context.get? var = some (real x))
include bound

/-- The product rule. -/
theorem IsSlope.mul (slope : IsSlope context var x du u) (slope' : IsSlope context var x dv v)
    (near : DefinedNear context var x (binary .mul u v)) :
    IsSlope context var x (du * v + u * dv) (binary .mul u v) := by
  intro z means
  rcases near.of_binary with ⟨nearU, nearV, same⟩
  rcases means_binary.1 means with ⟨_, _, meansLeft, meansRight, -, rfl⟩
  rcases means_binary.1 meansLeft with ⟨a, v₀, meansU, atV, -, rfl⟩
  rcases means_binary.1 meansRight with ⟨u₀, b, atU, meansV, -, rfl⟩
  obtain rfl := atU.unique (nearU.means bound)
  obtain rfl := atV.unique (nearV.means bound)
  exact ((slope a meansU).mul (slope' b meansV)).congr_of_eventuallyEq same

/-- The quotient rule. -/
theorem IsSlope.div (slope : IsSlope context var x du u) (slope' : IsSlope context var x dv v)
    (near : DefinedNear context var x (binary .div u v)) :
    IsSlope context var x ((du * v - u * dv) / Elementary.square v) (binary .div u v) := by
  intro z means
  rcases near.of_binary with ⟨nearU, nearV, same⟩
  rcases means_binary.1 (near.means bound) with ⟨u₀, v₀, atU, atV, nonzero, -⟩
  rcases means_binary.1 means with ⟨_, _, meansTop, meansBottom, -, rfl⟩
  rcases means_binary.1 meansTop with ⟨_, _, meansLeft, meansRight, -, rfl⟩
  rcases means_binary.1 meansLeft with ⟨a, v₁, meansU, atV₁, -, rfl⟩
  rcases means_binary.1 meansRight with ⟨u₁, b, atU₁, meansV, -, rfl⟩
  rcases means_square.1 meansBottom with ⟨v₂, atV₂, rfl⟩
  obtain rfl := atU₁.unique atU
  obtain rfl := atV₁.unique atV
  obtain rfl := atV₂.unique atV
  obtain rfl := atU.unique (nearU.means bound)
  obtain rfl := atV.unique (nearV.means bound)
  exact ((slope a meansU).div (slope' b meansV) nonzero).congr_of_eventuallyEq same

/-- The power rule for an exponent without the variable. -/
theorem IsSlope.pow_const (slope : IsSlope context var x du u) (free : v.dependsOn var = false)
    (near : DefinedNear context var x (binary .pow u v)) :
    IsSlope context var x (v * u ^ (v - .ofNat 1) * du) (binary .pow u v) := by
  intro z means
  rcases near.of_binary with ⟨nearU, -, same⟩
  rcases means_binary.1 means with ⟨_, a, meansLeft, meansU, -, rfl⟩
  rcases means_binary.1 meansLeft with ⟨c, _, meansV, meansPower, -, rfl⟩
  rcases means_binary.1 meansPower with ⟨u₀, _, atU, meansLess, domain, rfl⟩
  rcases means_binary.1 meansLess with ⟨c', one, meansV', meansOne, -, rfl⟩
  obtain rfl := means_ofNat.1 meansOne
  obtain rfl := meansV'.unique meansV
  obtain rfl := atU.unique (nearU.means bound)
  rw [along_of_not_dependsOn free meansV] at same
  change PowerDomain _ (c' - (1 : ℕ)) at domain
  rw [Nat.cast_one] at domain
  refine (hasDerivAt_power (slope a meansU) domain).congr_deriv ?_ |>.congr_of_eventuallyEq same
  simp only [operationValue, Nat.cast_one]

include radians

/-- The power rule for a base without the variable. -/
theorem IsSlope.const_pow (slope' : IsSlope context var x dv v) (free : u.dependsOn var = false)
    (near : DefinedNear context var x (binary .pow u v)) :
    IsSlope context var x (u ^ v * apply .ln u * dv) (binary .pow u v) := by
  intro z means
  rcases near.of_binary with ⟨-, nearV, same⟩
  rcases means_binary.1 means with ⟨_, b, meansLeft, meansV, -, rfl⟩
  rcases means_binary.1 meansLeft with ⟨_, _, meansPower, meansLog, -, rfl⟩
  rcases means_binary.1 meansPower with ⟨c, v₀, meansU, atV, -, rfl⟩
  rcases (means_apply radians).1 meansLog with ⟨c', meansU', positive, rfl⟩
  obtain rfl := meansU'.unique meansU
  obtain rfl := atV.unique (nearV.means bound)
  rw [along_of_not_dependsOn free meansU] at same
  exact (hasDerivAt_exponential (slope' b meansV) positive).congr_of_eventuallyEq same

/-- The general power rule. -/
theorem IsSlope.pow (slope : IsSlope context var x du u) (slope' : IsSlope context var x dv v)
    (near : DefinedNear context var x (binary .pow u v)) :
    IsSlope context var x (u ^ v * (dv * apply .ln u + v * du / u)) (binary .pow u v) := by
  intro z means
  rcases near.of_binary with ⟨nearU, nearV, same⟩
  have atU := nearU.means bound
  have atV := nearV.means bound
  rcases means_binary.1 means with ⟨_, _, meansPower, meansSum, -, rfl⟩
  rcases means_binary.1 meansPower with ⟨u₀, v₀, atU₀, atV₀, -, rfl⟩
  rcases means_binary.1 meansSum with ⟨_, _, meansLeft, meansRight, -, rfl⟩
  rcases means_binary.1 meansLeft with ⟨b, _, meansV, meansLog, -, rfl⟩
  rcases (means_apply radians).1 meansLog with ⟨u₁, atU₁, positive, rfl⟩
  rcases means_binary.1 meansRight with ⟨_, u₂, meansProduct, atU₂, -, rfl⟩
  rcases means_binary.1 meansProduct with ⟨v₁, a, atV₁, meansU, -, rfl⟩
  obtain rfl := atU₀.unique atU
  obtain rfl := atU₁.unique atU
  obtain rfl := atU₂.unique atU
  obtain rfl := atV₀.unique atV
  obtain rfl := atV₁.unique atV
  exact (hasDerivAt_generalPower (slope a meansU) (slope' b meansV) positive).congr_of_eventuallyEq same

end Rules

/-! ### The derivative of an expression -/

/-- Where an expression is defined near a point, its symbolic derivative means its slope there, if it means
    anything. -/
theorem isSlope_of_derivative (radians : context.unit = .radians)
    (bound : context.get? var = some (real x)) :
    ∀ {e d : Expr Exact}, e.derivative var = .ok d → DefinedNear context var x e →
      IsSlope context var x d e
  | number value, d, made, near => by
      cases (derivative_number value var).symm.trans made
      exact isSlope_zero bound rfl near
  | symbol name, d, made, near => by
      rw [derivative_symbol] at made
      split at made
      · next same =>
        cases made
        rw [same]
        exact isSlope_one
      · next other =>
        cases made
        have free : (symbol name : Expr Exact).dependsOn var = false := by
          simp [dependsOn, symbols, Ne.symm other]
        exact isSlope_zero bound free near
  | neg u, d, made, near => by
      rw [derivative_neg] at made
      rcases bind_eq_ok_iff.1 made with ⟨du, madeU, last⟩
      cases last
      exact (isSlope_of_derivative radians bound madeU near.of_neg.1).neg near
  | apply function u, d, made, near => by
      rw [derivative_apply] at made
      split at made
      · cases made
      · next outer known =>
        rcases bind_eq_ok_iff.1 made with ⟨du, madeU, last⟩
        cases last
        have slope := isSlope_of_derivative radians bound madeU (near.of_apply radians).1
        exact slope.chain radians bound known near
  | binary op u v, d, made, near => by
      -- the operands are defined near the point as well, whichever of the derivatives the rule asks for
      rcases near.of_binary with ⟨nearU, nearV, -⟩
      have slopeU {du : Expr Exact} (madeU : u.derivative var = .ok du) : IsSlope context var x du u :=
        isSlope_of_derivative radians bound madeU nearU
      have slopeV {dv : Expr Exact} (madeV : v.derivative var = .ok dv) : IsSlope context var x dv v :=
        isSlope_of_derivative radians bound madeV nearV
      cases op with
      | add =>
        rw [derivative_add] at made
        rcases bind_eq_ok_iff.1 made with ⟨du, madeU, rest⟩
        rcases bind_eq_ok_iff.1 rest with ⟨dv, madeV, last⟩
        cases last
        exact (slopeU madeU).add (slopeV madeV) near
      | sub =>
        rw [derivative_sub] at made
        rcases bind_eq_ok_iff.1 made with ⟨du, madeU, rest⟩
        rcases bind_eq_ok_iff.1 rest with ⟨dv, madeV, last⟩
        cases last
        exact (slopeU madeU).sub (slopeV madeV) near
      | mul =>
        rw [derivative_mul] at made
        rcases bind_eq_ok_iff.1 made with ⟨du, madeU, rest⟩
        rcases bind_eq_ok_iff.1 rest with ⟨dv, madeV, last⟩
        cases last
        exact (slopeU madeU).mul bound (slopeV madeV) near
      | div =>
        rw [derivative_div] at made
        split at made
        · rcases bind_eq_ok_iff.1 made with ⟨du, madeU, rest⟩
          rcases bind_eq_ok_iff.1 rest with ⟨dv, madeV, last⟩
          cases last
          exact (slopeU madeU).div bound (slopeV madeV) near
        · next free =>
          rcases bind_eq_ok_iff.1 made with ⟨du, madeU, last⟩
          cases last
          exact (slopeU madeU).div_const (Bool.eq_false_iff.2 free) near
      | pow =>
        rw [derivative_pow] at made
        split at made
        · next free =>
          rcases bind_eq_ok_iff.1 made with ⟨du, madeU, last⟩
          cases last
          exact (slopeU madeU).pow_const bound (Bool.not_eq_true' _ ▸ free) near
        · split at made
          · next free =>
            rcases bind_eq_ok_iff.1 made with ⟨dv, madeV, last⟩
            cases last
            exact (slopeV madeV).const_pow radians bound (Bool.not_eq_true' _ ▸ free) near
          · rcases bind_eq_ok_iff.1 made with ⟨du, madeU, rest⟩
            rcases bind_eq_ok_iff.1 rest with ⟨dv, madeV, last⟩
            cases last
            exact (slopeU madeU).pow radians bound (slopeV madeV) near
  | call name arguments, d, _, near => absurd (near.means bound) not_means_call

/-- An expression without calls and absolute values has a symbolic derivative. Over exact numbers, where the
    expression is defined near a point with all its parts, and the symbolic derivative is defined at the
    point with all of its parts, what that means is the derivative of the value of the expression as a
    function of the variable. -/
theorem derivative_exists_and_hasDerivAt :
    (∀ {α : Type} [Scalar α] (e : Expr α) (var : String), e.CallFree → e.AbsFree →
      ∃ d, e.derivative var = .ok d) ∧
    ∀ (e d : Expr Exact) (var : String), e.derivative var = .ok d →
      ∀ (context : Context Exact) (x : ℝ), context.unit = .radians →
        context.get? var = some (real x) →
        (∀ᶠ t in 𝓝 x, e.DefinedThroughout (context.set var (real t))) →
        d.DefinedThroughout context →
        ∃ y, d.Means context y ∧ HasDerivAt (e.along context var) y x := by
  constructor
  · intro α _ e var calls abs
    exact exists_derivative var calls abs
  · intro e d var made context x radians bound near defined
    have nearE : DefinedNear context var x e := by
      filter_upwards [near] with t definedE
      exact definedE e (self_mem_postOrder e)
    rcases defined d (self_mem_postOrder d) with ⟨y, means⟩
    exact ⟨y, means, isSlope_of_derivative radians bound made nearE y means⟩

/-- The logarithm is defined only on one side of zero, and so near every positive number. -/
theorem derivative_exists_and_hasDerivAt_logarithm :
    (∃ d, (apply .ln (symbol "x") : Expr Exact).derivative "x" = .ok d) ∧
    ∃ y, (ofNat 1 / symbol "x" * ofNat 1 : Expr Exact).Means (Context.empty.set "x" (real 2)) y ∧
      HasDerivAt ((apply .ln (symbol "x")).along (Context.empty.set "x" (real 2)) "x") y 2 := by
  have bound (t : ℝ) :
      (symbol "x").Means ((Context.empty.set "x" (real 2)).set "x" (real t)) t :=
    means_symbol.2 (by rw [Context.get?_set, if_pos rfl])
  refine ⟨derivative_exists_and_hasDerivAt.1 _ _ rfl (by simp [AbsFree, postOrder]),
    derivative_exists_and_hasDerivAt.2 (apply .ln (symbol "x")) _ "x" ?_ _ 2 rfl ?_ ?_ ?_⟩
  · rw [derivative_apply, derivative_symbol]
    rfl
  · rw [Context.get?_set, if_pos rfl]
  · filter_upwards [lt_mem_nhds (zero_lt_two' ℝ)] with t positive
    exact (definedThroughout_iff rfl _).2 ⟨Real.log t, (means_apply rfl).2 ⟨t, bound t, positive, rfl⟩⟩
  · refine (definedThroughout_iff rfl _).2 ⟨1 / 2 * (1 : ℕ), means_binary.2 ?_⟩
    have half : (ofNat 1 / symbol "x" : Expr Exact).Means (Context.empty.set "x" (real 2)) (1 / 2) :=
      means_reciprocal.2 ⟨2, means_symbol.2 rfl, two_ne_zero, rfl⟩
    exact ⟨1 / 2, (1 : ℕ), half, means_ofNat.2 rfl, trivial, rfl⟩

end Expr

end SymbolicCalculus
