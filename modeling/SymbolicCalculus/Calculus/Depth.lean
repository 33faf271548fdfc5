/-
Module: SymbolicCalculus.Calculus.Depth
Layer: Calculus
Purpose: No rule of the calculus puts calls deeper inside each other than they are in the expression
  that it is applied to. The rules call each other on results as well as on parts, and come to an end
  because of this. There is one statement here for each rule.
Main exports: Operation, operation?, negatedExponent, powerAntiderivative, overSlope, Shallow, Outcome,
  Resolved, workload_lt, depth_product and the bounds of the other rules
-/
import SymbolicCalculus.Calculus.Cause
import SymbolicCalculus.Calculus.Table

namespace SymbolicCalculus.Expr

variable {α : Type}

/-! ### Results with a bound -/

/-- An expression with calls no deeper inside each other than the given depth. -/
abbrev Shallow (α : Type) (depth : Nat) := { e : Expr α // e.callDepth ≤ depth }

/-- A row of expressions with calls no deeper inside each other than the given depth. -/
abbrev ShallowAll (α : Type) (depth : Nat) := { es : List (Expr α) // callDepthOfAll es ≤ depth }

/-- A shallow expression or a reason why there is none. -/
abbrev Outcome (α : Type) (depth : Nat) := Except (CalculusCause α) (Shallow α depth)

/-- What is left of an expression after its calls have been carried out has calls no deeper inside each
    other; fewer, if the expression was a call and is one no more. -/
def Settles (e r : Expr α) : Prop :=
  r.callDepth ≤ e.callDepth ∧ (e.isCall = true → r.isCall = false → r.callDepth < e.callDepth)

/-- The result of carrying out the calls in an expression. -/
abbrev Resolved (e : Expr α) := { r : Expr α // Settles e r }

/-- The order in which the operations get done: first by the depth of the calls, then by the number of
    nodes, then by the rank of the operation. -/
theorem workload_lt {depth depth' nodes nodes' rank rank' : Nat}
    (less : depth' < depth ∨ depth' ≤ depth ∧ (nodes' < nodes ∨ nodes' ≤ nodes ∧ rank' < rank)) :
    Prod.Lex (· < ·) (Prod.Lex (· < ·) (· < ·)) (depth', nodes', rank') (depth, nodes, rank) := by
  rcases less with less | ⟨no_more, less⟩
  · exact .left _ _ less
  · rcases Nat.lt_or_eq_of_le no_more with less_ | rfl
    · exact .left _ _ less_
    · refine .right _ ?_
      rcases less with less | ⟨no_more, less⟩
      · exact .left _ _ less
      · rcases Nat.lt_or_eq_of_le no_more with less_ | rfl
        · exact .left _ _ less_
        · exact .right _ less

/-! ### The operations that calls ask for -/

/-- The two operations of the calculus. -/
inductive Operation where
  | integration
  | differentiation
deriving DecidableEq, Repr, Inhabited

/-- The operation that a call asks for, with the expression and the variable that it is to be carried
    out on. The variable has to be a symbol. -/
def operation? (name : String) : List (Expr α) → Option (Operation × Expr α × String)
  | [f, symbol bound] =>
      if name = integralName then some (.integration, f, bound)
      else if name = derivativeName then some (.differentiation, f, bound)
      else none
  | _ => none

theorem depth_operation? {name bound : String} {arguments : List (Expr α)} {f : Expr α}
    {operation : Operation} (known : operation? name arguments = some (operation, f, bound)) :
    f.callDepth ≤ callDepthOfAll arguments := by
  unfold operation? at known
  split at known
  · split at known
    · cases known; simp only [callDepthOfAll]; omega
    · split at known
      · cases known; simp only [callDepthOfAll]; omega
      · cases known
  · cases known

/-- What an operation is carried out on is less deep than the call that asks for it. -/
theorem depth_operand {name bound : String} {arguments : List (Expr α)} {f : Expr α}
    {operation : Operation} (known : operation? name arguments = some (operation, f, bound)) :
    f.callDepth ≤ (call name arguments).callDepth := by
  have inside := depth_operation? known
  simp only [callDepth]
  omega

/-- The result of one operation on the result of another is no deeper than the call. -/
theorem depth_carriedOut {name bound : String} {arguments : List (Expr α)} {f g result : Expr α}
    {operation : Operation} (known : operation? name arguments = some (operation, f, bound))
    (hg : g.callDepth ≤ f.callDepth) (hr : result.callDepth ≤ g.callDepth) :
    result.callDepth ≤ (call name arguments).callDepth :=
  Nat.le_trans hr (Nat.le_trans hg (depth_operand known))

/-! ### The rules of differentiation -/

section Differentiation

variable {u v du dv : Expr α}

theorem depth_ofNat [Scalar α] (n depth : Nat) : (ofNat n : Expr α).callDepth ≤ depth := by
  simp [ofNat, callDepth]

theorem depth_neg (hu : du.callDepth ≤ u.callDepth) : (-du).callDepth ≤ (neg u).callDepth := by
  simpa [neg_def, callDepth] using hu

theorem depth_chain [Scalar α] {function : Elementary} {outer : Expr α}
    (known : function.derivativeAt? u = some outer) (hu : du.callDepth ≤ u.callDepth) :
    (outer * du).callDepth ≤ (apply function u).callDepth := by
  have := Elementary.callDepth_derivativeAt? known
  simp only [callDepth]; omega

theorem depth_sum (hu : du.callDepth ≤ u.callDepth) (hv : dv.callDepth ≤ v.callDepth) :
    (du + dv).callDepth ≤ (binary .add u v).callDepth := by
  simp only [callDepth]; omega

theorem depth_difference (hu : du.callDepth ≤ u.callDepth) (hv : dv.callDepth ≤ v.callDepth) :
    (du - dv).callDepth ≤ (binary .sub u v).callDepth := by
  simp only [sub_def, callDepth]; omega

theorem depth_product (hu : du.callDepth ≤ u.callDepth) (hv : dv.callDepth ≤ v.callDepth) :
    (du * v + u * dv).callDepth ≤ (binary .mul u v).callDepth := by
  simp only [callDepth]; omega

theorem depth_quotient [Scalar α] (hu : du.callDepth ≤ u.callDepth) (hv : dv.callDepth ≤ v.callDepth) :
    ((du * v - u * dv) / Elementary.square v).callDepth ≤ (binary .div u v).callDepth := by
  simp only [div_def, sub_def, mul_def, pow_def, Elementary.square, ofNat, callDepth]; omega

theorem depth_fraction (hu : du.callDepth ≤ u.callDepth) :
    (du / v).callDepth ≤ (binary .div u v).callDepth := by
  simp only [div_def, callDepth]; omega

theorem depth_power [Scalar α] (hu : du.callDepth ≤ u.callDepth) :
    (v * u ^ (v - .ofNat 1) * du).callDepth ≤ (binary .pow u v).callDepth := by
  simp only [pow_def, sub_def, ofNat, callDepth]; omega

theorem depth_exponential (hv : dv.callDepth ≤ v.callDepth) :
    (u ^ v * apply .ln u * dv).callDepth ≤ (binary .pow u v).callDepth := by
  simp only [pow_def, callDepth]; omega

theorem depth_generalPower (hu : du.callDepth ≤ u.callDepth) (hv : dv.callDepth ≤ v.callDepth) :
    (u ^ v * (dv * apply .ln u + v * du / u)).callDepth ≤ (binary .pow u v).callDepth := by
  simp only [mul_def, div_def, pow_def, callDepth]; omega

end Differentiation

/-! ### The rules of integration -/

section Integration

variable {u v f g : Expr α}

/-- The negative of an exponent: a number is negated at once. -/
def negatedExponent [Scalar α] (exponent : Expr α) : Expr α :=
  match exponent.asNumber? with
  | some n => number (-n)
  | none => -exponent

/-- The exponent raised by one: a number is raised at once. -/
def raisedExponent [Scalar α] (exponent : Expr α) : Expr α :=
  match exponent.asNumber? with
  | some n => number (n + Scalar.ofNat 1)
  | none => exponent + .ofNat 1

/-- An antiderivative of `u ^ exponent` by `u`: the logarithm for the exponent minus one. -/
def powerAntiderivative [Scalar α] (u exponent : Expr α) : Expr α :=
  match exponent.asNumber? with
  | some n =>
      if n == -Scalar.ofNat 1 then apply .ln u
      else u ^ exponent.raisedExponent / exponent.raisedExponent
  | none => u ^ exponent.raisedExponent / exponent.raisedExponent

/-- An antiderivative by a linear argument as one by the variable: divided by the slope, unless that
    is one. -/
def overSlope [Scalar α] (e : Expr α) (slope : α) : Expr α :=
  if slope == Scalar.ofNat 1 then e else e / number slope

theorem callDepth_negatedExponent [Scalar α] (e : Expr α) :
    e.negatedExponent.callDepth ≤ e.callDepth := by
  unfold negatedExponent
  split <;> simp [callDepth]

theorem nodeCount_negatedExponent [Scalar α] (e : Expr α) :
    e.negatedExponent.nodeCount ≤ e.nodeCount + 1 := by
  have := e.nodeCount_pos
  unfold negatedExponent
  split <;> simp [nodeCount]

theorem callDepth_raisedExponent [Scalar α] (e : Expr α) :
    e.raisedExponent.callDepth ≤ e.callDepth := by
  unfold raisedExponent
  split <;> simp [callDepth, ofNat]

theorem callDepth_powerAntiderivative [Scalar α] (u e : Expr α) :
    (powerAntiderivative u e).callDepth ≤ max u.callDepth e.callDepth := by
  have := callDepth_raisedExponent e
  unfold powerAntiderivative
  split
  · split <;> simp only [callDepth, div_def, pow_def] <;> omega
  · simp only [callDepth, div_def, pow_def]; omega

theorem callDepth_overSlope [Scalar α] (e : Expr α) (slope : α) :
    (e.overSlope slope).callDepth = e.callDepth := by
  unfold overSlope
  split <;> simp [callDepth, div_def]

theorem depth_timesVariable (e : Expr α) (var : String) :
    (e * symbol var).callDepth ≤ e.callDepth := by
  simp [callDepth]

theorem depth_halfSquare [Scalar α] (name : String) :
    (Elementary.square (symbol name) / .ofNat 2 : Expr α).callDepth ≤
      (symbol name : Expr α).callDepth := by
  simp [div_def, pow_def, Elementary.square, ofNat, callDepth]

theorem depth_ofTable [Scalar α] {function : Elementary} {outer : Expr α}
    (known : function.antiderivativeAt? u = some outer) (slope : α) :
    (outer.overSlope slope).callDepth ≤ (apply function u).callDepth := by
  have := Elementary.callDepth_antiderivativeAt? known
  have := callDepth_overSlope outer slope
  simp only [callDepth]; omega

theorem depth_timesLeft (hg : g.callDepth ≤ v.callDepth) :
    (u * g).callDepth ≤ (binary .mul u v).callDepth := by
  simp only [callDepth]; omega

theorem depth_timesRight (hf : f.callDepth ≤ u.callDepth) :
    (v * f).callDepth ≤ (binary .mul u v).callDepth := by
  simp only [callDepth]; omega

theorem depth_underOne (hg : g.callDepth ≤ v.callDepth) :
    g.callDepth ≤ (binary .div u v).callDepth := by
  simp only [callDepth]; omega

theorem depth_underNumerator (hg : g.callDepth ≤ v.callDepth) :
    (u * g).callDepth ≤ (binary .div u v).callDepth := by
  simp only [callDepth]; omega

theorem depth_powerOfLinear [Scalar α] {w : Expr α} (simplified : v.simplify = .ok w) (slope : α) :
    ((powerAntiderivative u w).overSlope slope).callDepth ≤ (binary .pow u v).callDepth := by
  have := callDepth_simplify simplified
  have := callDepth_powerAntiderivative u w
  have := callDepth_overSlope (powerAntiderivative u w) slope
  simp only [callDepth]; omega

theorem depth_exponentialOfLinear [Scalar α] (slope : α) :
    ((binary .pow u v / apply .ln u).overSlope slope).callDepth ≤ (binary .pow u v).callDepth := by
  have := callDepth_overSlope (binary .pow u v / apply .ln u) slope
  simp only [div_def, callDepth] at this ⊢; omega

theorem depth_negatedPower [Scalar α] (hg : g.callDepth ≤ (u ^ v.negatedExponent).callDepth) :
    g.callDepth ≤ (binary .pow u v).callDepth := by
  have := callDepth_negatedExponent v
  simp only [pow_def, callDepth] at hg ⊢; omega

theorem depth_logarithm [Scalar α] (e : Expr α) (slope : α) :
    ((apply .ln e).overSlope slope).callDepth ≤ e.callDepth := by
  simp [callDepth_overSlope, callDepth]

end Integration

/-! ### The rules of resolution -/

section Resolution

variable {u v r s f g : Expr α} {name bound : String} {arguments resolved : List (Expr α)}

theorem settles_number (value : α) : Settles (number value) (number value) := by
  simp [Settles, isCall]

theorem settles_symbol (name : String) : Settles (symbol name : Expr α) (symbol name) := by
  simp [Settles, isCall]

theorem settles_neg (hr : Settles u r) : Settles (neg u) (neg r) := by
  simpa [Settles, isCall, callDepth] using hr.1

theorem settles_apply {function : Elementary} (hr : Settles u r) :
    Settles (apply function u) (apply function r) := by
  simpa [Settles, isCall, callDepth] using hr.1

theorem settles_binary {op : BinaryOp} (hr : Settles u r) (hs : Settles v s) :
    Settles (binary op u v) (binary op r s) := by
  have left := hr.1
  have right := hs.1
  refine ⟨?_, by simp [isCall]⟩
  simp only [callDepth]; omega

/-- A call that stays a call. -/
theorem settles_call (h : callDepthOfAll resolved ≤ callDepthOfAll arguments) :
    Settles (call name arguments) (call name resolved) := by
  simp only [Settles, callDepth, isCall]
  exact ⟨by omega, by simp⟩

/-- A call that has been carried out. -/
theorem settles_operation {operation : Operation}
    (h : callDepthOfAll resolved ≤ callDepthOfAll arguments)
    (known : operation? name resolved = some (operation, f, bound))
    (hg : g.callDepth ≤ f.callDepth) : Settles (call name arguments) g := by
  have inside := depth_operation? known
  simp only [Settles, callDepth]
  exact ⟨by omega, fun _ _ => by omega⟩

theorem settles_cons {first r : Expr α} {others rs : List (Expr α)} (hr : Settles first r)
    (hrs : callDepthOfAll rs ≤ callDepthOfAll others) :
    callDepthOfAll (r :: rs) ≤ callDepthOfAll (first :: others) := by
  have := hr.1
  simp only [callDepthOfAll]; omega

theorem settles_noCall (hr : Settles (call name arguments) r) (calls : ¬ r.isCall = true) :
    r.callDepth < (call name arguments).callDepth :=
  hr.2 rfl (Bool.eq_false_iff.mpr calls)

end Resolution

end SymbolicCalculus.Expr
