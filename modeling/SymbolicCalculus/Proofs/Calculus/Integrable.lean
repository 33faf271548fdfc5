/-
Module: SymbolicCalculus.Proofs.Calculus.Integrable
Layer: Proofs
Purpose: A class of expressions that integration never fails on: powers, reciprocals, exponentials and functions
  of the variable or of `a * x + b`, and what sums and constant factors make of them. A linear part is integrated
  by its slope, so what has to be shown is that simplification finds the slope, whatever `b` is; and that the
  rules, some of which fit the same expressions, lead every member of the class to parts that are in it again.
Main exports: Expr.DivisionFree, Expr.Linear, Expr.Linear.exists_slope, Expr.Integrable,
  Expr.exists_antiderivative_of_integrable
-/
import SymbolicCalculus.Proofs.Exact.Neutral

namespace SymbolicCalculus.Expr

open Exact

/-! ### Linear parts -/

/-- Nothing is divided inside the expression. -/
def DivisionFree {α : Type} (e : Expr α) : Prop :=
  ∀ numerator denominator : Expr α, numerator / denominator ∉ e.postOrder

theorem DivisionFree.denominatorsStay {α : Type} [Scalar α] {e : Expr α} (divisions : e.DivisionFree) :
    e.DenominatorsStay :=
  fun numerator denominator mem => absurd mem (divisions numerator denominator)

/-- The variable, or a multiple of it to which something without the variable is added. The factor is a
    literal other than zero. -/
inductive Linear (var : String) : Expr Exact → Prop where
  | symbol : Linear var (.symbol var)
  | affine {a b : Expr Exact} {slope : ℝ} (literal : a.StandsFor slope) (nonzero : slope ≠ 0)
      (calls : b.CallFree) (abs : b.AbsFree) (divisions : b.DivisionFree)
      (free : b.dependsOn var = false) : Linear var (a * symbol var + b)

variable {var : String} {u c k e n : Expr Exact}

theorem dependsOn_symbol (var : String) : (symbol var : Expr Exact).dependsOn var = true := by
  simp [dependsOn, symbols]

theorem dependsOn_left {op : BinaryOp} {v : Expr Exact} (depends : u.dependsOn var = true) :
    (binary op u v).dependsOn var = true := by
  rw [dependsOn_binary, depends, Bool.true_or]

theorem dependsOn_right {op : BinaryOp} {v : Expr Exact} (depends : v.dependsOn var = true) :
    (binary op u v).dependsOn var = true := by
  rw [dependsOn_binary, depends, Bool.or_true]

theorem Linear.dependsOn (linear : Linear var u) : u.dependsOn var = true := by
  cases linear with
  | symbol => exact dependsOn_symbol var
  | affine => exact dependsOn_left (dependsOn_right (dependsOn_symbol var))

/-- One pass makes the slope of the derivative of `a * x + b`: the derivatives of `a` and of `b` vanish, and
    what is left is `0 + a * 1 + 0`. -/
theorem derivative_affine {a b : Expr Exact} {slope : ℝ} (literal : a.StandsFor slope)
    (vanishes : Vanishes var b) :
    ∃ d, (a * symbol var + b).derivative var = .ok d ∧ d.pass.1 = number (real slope) := by
  obtain ⟨da, derivedA, zeroA⟩ : Vanishes var a := literal.vanishes
  obtain ⟨db, derivedB, zeroB⟩ := vanishes
  refine ⟨da * symbol var + a * ofNat 1 + db, ?_, ?_⟩
  · rw [add_def, derivative_add, mul_def, derivative_mul, derivedA, derivative_symbol, if_pos rfl, derivedB]
    rfl
  · have product : (da * symbol var + a * ofNat 1).pass.1 = number (real slope) := by
      rw [pass_zero_product_add zeroA, pass_mul_one, literal.pass]
    rw [add_def, pass, product, zeroB]
    exact finish_add_zero _

/-- The slope of a linear part is found. -/
theorem Linear.exists_slope (linear : Linear var u) : ∃ slope, u.slope? var = .ok (some slope) := by
  rw [slope?_eq]
  cases linear with
  | symbol => exact ⟨_, if_pos rfl⟩
  | @affine a b slope literal nonzero calls abs divisions free =>
    obtain ⟨d, derived, passed⟩ := derivative_affine literal
      (vanishes_of_not_dependsOn calls abs divisions.denominatorsStay free)
    have simplified : d.simplify = .ok (number (real slope)) := simplify_of_pass passed (atRest_number _)
    have other : (real slope == Scalar.ofNat 0) = false := by
      rw [ofNat_eq, Nat.cast_zero]
      exact not_beq nonzero
    refine ⟨real slope, ?_⟩
    rw [if_neg nofun, derived]
    simp only [simplified]
    simp [asNumber?, isFinite_real, other]

/-! ### The class -/

/-- The functions that are integrated by the table. -/
def integrableFunctions : List Elementary := [.sin, .cos, .exp, .sinh, .cosh, .sqrt, .ln]

/-- The expressions that the rules of integration are for. -/
inductive Integrable (var : String) : Expr Exact → Prop where
  | free {e : Expr Exact} (free : e.dependsOn var = false) : Integrable var e
  | symbol : Integrable var (.symbol var)
  | power {u n : Expr Exact} {exponent : ℝ} (linear : Linear var u) (literal : n.StandsFor exponent) :
      Integrable var (u ^ n)
  | reciprocal {c u : Expr Exact} (free : c.dependsOn var = false) (linear : Linear var u) :
      Integrable var (c / u)
  | reciprocalPower {c u n : Expr Exact} {exponent : ℝ} (free : c.dependsOn var = false)
      (linear : Linear var u) (literal : n.StandsFor exponent) : Integrable var (c / u ^ n)
  | exponential {k u : Expr Exact} (free : k.dependsOn var = false) (linear : Linear var u) :
      Integrable var (k ^ u)
  | function {function : Elementary} {u : Expr Exact} (known : function ∈ integrableFunctions)
      (linear : Linear var u) : Integrable var (.apply function u)
  | add {u v : Expr Exact} (left : Integrable var u) (right : Integrable var v) : Integrable var (u + v)
  | sub {u v : Expr Exact} (left : Integrable var u) (right : Integrable var v) : Integrable var (u - v)
  | neg {u : Expr Exact} (inner : Integrable var u) : Integrable var (-u)
  | timesLeft {c u : Expr Exact} (free : c.dependsOn var = false) (inner : Integrable var u) :
      Integrable var (c * u)
  | timesRight {u c : Expr Exact} (inner : Integrable var u) (free : c.dependsOn var = false) :
      Integrable var (u * c)
  | quotient {u c : Expr Exact} (inner : Integrable var u) (free : c.dependsOn var = false) :
      Integrable var (u / c)

/-! ### Members of the class -/

/-- There is an antiderivative. -/
def HasAntiderivative (var : String) (e : Expr Exact) : Prop := ∃ F, e.antiderivative var = .ok F

/-- What the variable does not occur in is a factor of it. -/
theorem antiderivative_of_not_dependsOn (calls : e.CallFree) (free : e.dependsOn var = false) :
    e.antiderivative var = .ok (e * .symbol var) := by
  cases e with
  | number value => exact antiderivative_number value var
  | symbol name =>
    rw [antiderivative_symbol, if_neg]
    rintro rfl
    rw [dependsOn_symbol] at free
    cases free
  | neg u => rw [antiderivative_neg, free]; rfl
  | apply function u => rw [antiderivative_apply, free]; rfl
  | binary op u v => exact antiderivative_binary_of_not_dependsOn free
  | call name arguments => exact absurd calls (Nat.succ_ne_zero _)

theorem hasAntiderivative_free (calls : e.CallFree) (free : e.dependsOn var = false) :
    HasAntiderivative var e :=
  ⟨_, antiderivative_of_not_dependsOn calls free⟩

theorem hasAntiderivative_power {exponent : ℝ} (linear : Linear var u) (literal : n.StandsFor exponent) :
    HasAntiderivative var (u ^ n) := by
  obtain ⟨slope, found⟩ := linear.exists_slope
  refine ⟨(powerAntiderivative u (number (real exponent))).overSlope slope, ?_⟩
  rw [pow_def, antiderivative_pow (dependsOn_left linear.dependsOn), literal.not_dependsOn, literal.simplify,
    found]
  rfl

theorem hasAntiderivative_exponential (free : k.dependsOn var = false) (linear : Linear var u) :
    HasAntiderivative var (k ^ u) := by
  obtain ⟨slope, found⟩ := linear.exists_slope
  refine ⟨(k ^ u / apply .ln k).overSlope slope, ?_⟩
  rw [pow_def, antiderivative_pow (dependsOn_right linear.dependsOn), linear.dependsOn, free, found]
  rfl

theorem hasAntiderivative_function {function : Elementary} (known : function ∈ integrableFunctions)
    (linear : Linear var u) : HasAntiderivative var (apply function u) := by
  obtain ⟨slope, found⟩ := linear.exists_slope
  obtain ⟨outer, table⟩ : ∃ outer, function.antiderivativeAt? u = some outer := by
    cases function <;> first | exact ⟨_, rfl⟩ | exact absurd known (by decide)
  have depends : (apply function u).dependsOn var = true := linear.dependsOn
  refine ⟨outer.overSlope slope, ?_⟩
  rw [antiderivative_apply, depends, table, found]
  rfl

/-- A quotient with a constant numerator is integrated if one over the denominator is. -/
theorem hasAntiderivative_div (free : c.dependsOn var = false) (depends : u.dependsOn var = true)
    (inner : ∃ g, Expr.reciprocal c u var = .ok g) : HasAntiderivative var (c / u) := by
  obtain ⟨g, integrated⟩ := inner
  refine ⟨if c.isNat 1 then g else c * g, ?_⟩
  rw [div_def, antiderivative_div (dependsOn_right depends), depends, free, integrated]
  rfl

/-- A linear part is no power, so one over it leads to the logarithm. -/
theorem hasAntiderivative_reciprocal (free : c.dependsOn var = false) (linear : Linear var u) :
    HasAntiderivative var (c / u) := by
  obtain ⟨slope, found⟩ := linear.exists_slope
  refine hasAntiderivative_div free linear.dependsOn ⟨(apply .ln u).overSlope slope, ?_⟩
  rw [reciprocal_of_not_pow c (by rintro base exponent rfl; cases linear), found]
  rfl

theorem standsFor_negatedExponent {exponent : ℝ} (literal : n.StandsFor exponent) :
    n.negatedExponent.StandsFor (-exponent) := by
  unfold negatedExponent
  rw [show n.asNumber? = some (real exponent) from literal]
  exact standsFor_number (-exponent)

/-- One over a power of a linear part is another power of it. -/
theorem hasAntiderivative_reciprocalPower {exponent : ℝ} (free : c.dependsOn var = false)
    (linear : Linear var u) (literal : n.StandsFor exponent) : HasAntiderivative var (c / u ^ n) := by
  obtain ⟨g, integrated⟩ := hasAntiderivative_power linear (standsFor_negatedExponent literal)
  refine hasAntiderivative_div free (dependsOn_left linear.dependsOn) ⟨g, ?_⟩
  rw [pow_def, reciprocal_pow c literal.not_dependsOn]
  exact integrated

/-! ### Operations on members

An operation without the variable is a factor of it, so only those with the variable are of interest. -/

theorem hasAntiderivative_of_dependsOn (calls : e.CallFree)
    (depending : e.dependsOn var = true → HasAntiderivative var e) : HasAntiderivative var e := by
  cases depends : e.dependsOn var with
  | false => exact hasAntiderivative_free calls depends
  | true => exact depending depends

theorem HasAntiderivative.additive {op : BinaryOp} {v : Expr Exact} (additive : op = .add ∨ op = .sub)
    (calls : (binary op u v).CallFree) (left : HasAntiderivative var u) (right : HasAntiderivative var v) :
    HasAntiderivative var (binary op u v) := by
  refine hasAntiderivative_of_dependsOn calls fun depends => ?_
  obtain ⟨f, integratedLeft⟩ := left
  obtain ⟨g, integratedRight⟩ := right
  refine ⟨binary op f g, ?_⟩
  rw [antiderivative_additive additive depends, integratedLeft, integratedRight]
  rfl

theorem HasAntiderivative.neg (calls : (-u).CallFree) (inner : HasAntiderivative var u) :
    HasAntiderivative var (-u) := by
  refine hasAntiderivative_of_dependsOn calls fun depends => ?_
  obtain ⟨f, integrated⟩ := inner
  refine ⟨-f, ?_⟩
  rw [neg_def] at depends ⊢
  rw [antiderivative_neg, depends, integrated]
  rfl

theorem HasAntiderivative.timesLeft (calls : (c * u).CallFree) (free : c.dependsOn var = false)
    (inner : HasAntiderivative var u) : HasAntiderivative var (c * u) := by
  refine hasAntiderivative_of_dependsOn calls fun depends => ?_
  obtain ⟨f, integrated⟩ := inner
  refine ⟨c * f, ?_⟩
  rw [mul_def] at depends ⊢
  rw [antiderivative_mul depends, free, integrated]
  rfl

/-- The rule for a constant factor on the left does not fit, since then the whole product would be constant. -/
theorem HasAntiderivative.timesRight (calls : (u * c).CallFree) (free : c.dependsOn var = false)
    (inner : HasAntiderivative var u) : HasAntiderivative var (u * c) := by
  refine hasAntiderivative_of_dependsOn calls fun depends => ?_
  obtain ⟨f, integrated⟩ := inner
  rw [mul_def] at depends ⊢
  have factor : u.dependsOn var = true := by rwa [dependsOn_binary, free, Bool.or_false] at depends
  refine ⟨c * f, ?_⟩
  rw [antiderivative_mul depends, factor, free, integrated]
  rfl

theorem HasAntiderivative.quotient (calls : (u / c).CallFree) (free : c.dependsOn var = false)
    (inner : HasAntiderivative var u) : HasAntiderivative var (u / c) := by
  refine hasAntiderivative_of_dependsOn calls fun depends => ?_
  obtain ⟨f, integrated⟩ := inner
  refine ⟨f / c, ?_⟩
  rw [div_def] at depends ⊢
  rw [antiderivative_div depends, free, integrated]
  rfl

/-- Integration never fails on a member of the class that has no calls. By induction on what makes it a
    member. -/
theorem exists_antiderivative_of_integrable (integrable : Integrable var e) (calls : e.CallFree) :
    ∃ F, e.antiderivative var = .ok F := by
  induction integrable with
  | free free => exact hasAntiderivative_free calls free
  | symbol => exact ⟨_, (antiderivative_symbol var var).trans (if_pos rfl)⟩
  | power linear literal => exact hasAntiderivative_power linear literal
  | reciprocal free linear => exact hasAntiderivative_reciprocal free linear
  | reciprocalPower free linear literal => exact hasAntiderivative_reciprocalPower free linear literal
  | exponential free linear => exact hasAntiderivative_exponential free linear
  | function known linear => exact hasAntiderivative_function known linear
  | add _ _ first second =>
    obtain ⟨callsLeft, callsRight⟩ := calls.of_binary
    exact HasAntiderivative.additive (.inl rfl) calls (first callsLeft) (second callsRight)
  | sub _ _ first second =>
    obtain ⟨callsLeft, callsRight⟩ := calls.of_binary
    exact HasAntiderivative.additive (.inr rfl) calls (first callsLeft) (second callsRight)
  | neg _ ih => exact HasAntiderivative.neg calls (ih calls)
  | timesLeft free _ ih => exact HasAntiderivative.timesLeft calls free (ih calls.of_binary.2)
  | timesRight _ free ih => exact HasAntiderivative.timesRight calls free (ih calls.of_binary.1)
  | quotient _ free ih => exact HasAntiderivative.quotient calls free (ih calls.of_binary.1)

/-- `y * exp(2 * x + ln(y)) - 3 / x^2` is a member. -/
theorem exists_antiderivative_of_integrable_difference :
    let argument : Expr Exact := ofNat 2 * symbol "x" + apply .ln (symbol "y")
    let e := symbol "y" * apply .exp argument - ofNat 3 / symbol "x" ^ (ofNat 2 : Expr Exact)
    Integrable "x" e ∧ e.CallFree ∧ ∃ F, e.antiderivative "x" = .ok F := by
  intro argument e
  have linear : Linear "x" argument := by
    refine .affine (standsFor_number _) two_ne_zero rfl ?_ ?_ (by decide)
    · intro operand mem
      simp [postOrder] at mem
    · intro numerator denominator mem
      simp [postOrder, div_def] at mem
  have integrable : Integrable "x" e := by
    refine .sub (.timesLeft (by decide) (.function (by decide) linear)) ?_
    exact .reciprocalPower rfl .symbol (standsFor_number _)
  exact ⟨integrable, rfl, exists_antiderivative_of_integrable integrable rfl⟩

end SymbolicCalculus.Expr
