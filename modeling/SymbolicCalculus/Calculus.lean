/-
Module: SymbolicCalculus.Calculus
Layer: Calculus
Purpose: Derivatives, antiderivatives, and the carrying out of calls. The three call each other: an
  integral is differentiated by integrating first, a derivative is integrated by differentiating first,
  and the slope of a linear argument is found by differentiating it. They come to an end because no
  result has calls deeper inside each other than the expression it was made from; every result carries
  the proof of that.
Main exports: Expr.derivative, Expr.slope?, Expr.antiderivative, Expr.reciprocal, Expr.resolve
-/
import SymbolicCalculus.Calculus.Depth

namespace SymbolicCalculus

namespace Expr

variable {α : Type} [Scalar α]

mutual

/-- The derivative of an expression by a variable, not simplified. -/
def derivativeIn (var : String) : (e : Expr α) → Outcome α e.callDepth
  | number _ => .ok ⟨.ofNat 0, depth_ofNat 0 _⟩
  | symbol name =>
      if name = var then .ok ⟨.ofNat 1, depth_ofNat 1 _⟩ else .ok ⟨.ofNat 0, depth_ofNat 0 _⟩
  | neg u => do
      let ⟨du, hu⟩ ← derivativeIn var u
      return ⟨-du, depth_neg hu⟩
  | apply function u =>
      match known : function.derivativeAt? u with
      | none => .error (.unsupportedDerivative function.name)
      | some outer => do
          let ⟨du, hu⟩ ← derivativeIn var u
          return ⟨outer * du, depth_chain known hu⟩
  | binary .add u v => do
      let ⟨du, hu⟩ ← derivativeIn var u
      let ⟨dv, hv⟩ ← derivativeIn var v
      return ⟨du + dv, depth_sum hu hv⟩
  | binary .sub u v => do
      let ⟨du, hu⟩ ← derivativeIn var u
      let ⟨dv, hv⟩ ← derivativeIn var v
      return ⟨du - dv, depth_difference hu hv⟩
  | binary .mul u v => do
      let ⟨du, hu⟩ ← derivativeIn var u
      let ⟨dv, hv⟩ ← derivativeIn var v
      return ⟨du * v + u * dv, depth_product hu hv⟩
  | binary .div u v =>
      if v.dependsOn var then do
        let ⟨du, hu⟩ ← derivativeIn var u
        let ⟨dv, hv⟩ ← derivativeIn var v
        return ⟨(du * v - u * dv) / Elementary.square v, depth_quotient hu hv⟩
      else do
        let ⟨du, hu⟩ ← derivativeIn var u
        return ⟨du / v, depth_fraction hu⟩
  | binary .pow u v =>
      if !v.dependsOn var then do
        let ⟨du, hu⟩ ← derivativeIn var u
        return ⟨v * u ^ (v - .ofNat 1) * du, depth_power hu⟩
      else if !u.dependsOn var then do
        let ⟨dv, hv⟩ ← derivativeIn var v
        return ⟨u ^ v * apply .ln u * dv, depth_exponential hv⟩
      else do
        let ⟨du, hu⟩ ← derivativeIn var u
        let ⟨dv, hv⟩ ← derivativeIn var v
        return ⟨u ^ v * (dv * apply .ln u + v * du / u), depth_generalPower hu hv⟩
  | call name arguments =>
      match known : operation? name arguments with
      | none => .error (.unsupportedDerivative name)
      | some (.integration, f, bound) =>
          if bound = var then .ok ⟨f, depth_operand known⟩
          else do
            let ⟨g, hg⟩ ← antiderivativeIn bound f
            let ⟨dg, hd⟩ ← derivativeIn var g
            return ⟨dg, depth_carriedOut known hg hd⟩
      | some (.differentiation, f, bound) => do
          let ⟨g, hg⟩ ← derivativeIn bound f
          let ⟨dg, hd⟩ ← derivativeIn var g
          return ⟨dg, depth_carriedOut known hg hd⟩
termination_by e => (e.callDepth, e.nodeCount, 0)
decreasing_by
  all_goals
    apply workload_lt
    try have := depth_operation? known
    simp only [callDepth, nodeCount]
    omega

/-- The slope of an expression that is linear in a variable: its simplified derivative, if that is a
    finite number other than zero. -/
def slopeIn (var : String) (u : Expr α) : Except (CalculusCause α) (Option α) :=
  if u.asSymbol? = some var then .ok (some (Scalar.ofNat 1))
  else
    match derivativeIn var u with
    | .error (.passLimit limit) => .error (.passLimit limit)
    | .error _ => .ok none
    | .ok ⟨du, _⟩ =>
        match du.simplify with
        | .error limit => .error (.passLimit limit)
        | .ok slope =>
            .ok (slope.asNumber?.filter fun a => Scalar.isFinite a && !(a == Scalar.ofNat 0))
termination_by (u.callDepth, u.nodeCount, 1)
decreasing_by
  all_goals
    apply workload_lt
    omega

/-- An antiderivative of an expression by a variable, not simplified. -/
def antiderivativeIn (var : String) (e : Expr α) : Outcome α e.callDepth :=
  match e with
  | call name arguments =>
      match resolveIn (call name arguments) with
      | .error cause => .error cause
      | .ok ⟨r, hr⟩ =>
          if calls : r.isCall then .error (.nonIntegrable (call name arguments))
          else do
            have fewer := settles_noCall hr calls
            let ⟨g, hg⟩ ← antiderivativeIn var r
            return ⟨g, Nat.le_trans hg (Nat.le_of_lt fewer)⟩
  | number value => .ok ⟨number value * symbol var, depth_timesVariable (number value) var⟩
  | symbol name =>
      if name = var then
        .ok ⟨Elementary.square (symbol name) / .ofNat 2, depth_halfSquare name⟩
      else .ok ⟨symbol name * symbol var, depth_timesVariable (symbol name) var⟩
  | neg u =>
      if !(neg u).dependsOn var then
        .ok ⟨neg u * symbol var, depth_timesVariable (neg u) var⟩
      else do
        let ⟨g, hg⟩ ← antiderivativeIn var u
        return ⟨-g, depth_neg hg⟩
  | apply function u =>
      if !(apply function u).dependsOn var then
        .ok ⟨apply function u * symbol var, depth_timesVariable (apply function u) var⟩
      else
        match known : function.antiderivativeAt? u with
        | none => .error (.nonIntegrable (apply function u))
        | some outer => do
            match ← slopeIn var u with
            | none => .error (.nonIntegrable (apply function u))
            | some slope => return ⟨outer.overSlope slope, depth_ofTable known slope⟩
  | binary op u v =>
      if !(binary op u v).dependsOn var then
        .ok ⟨binary op u v * symbol var, depth_timesVariable (binary op u v) var⟩
      else
        match op with
        | .add => do
            let ⟨f, hf⟩ ← antiderivativeIn var u
            let ⟨g, hg⟩ ← antiderivativeIn var v
            return ⟨f + g, depth_sum hf hg⟩
        | .sub => do
            let ⟨f, hf⟩ ← antiderivativeIn var u
            let ⟨g, hg⟩ ← antiderivativeIn var v
            return ⟨f - g, depth_difference hf hg⟩
        | .mul =>
            if !u.dependsOn var then do
              let ⟨g, hg⟩ ← antiderivativeIn var v
              return ⟨u * g, depth_timesLeft hg⟩
            else if !v.dependsOn var then do
              let ⟨f, hf⟩ ← antiderivativeIn var u
              return ⟨v * f, depth_timesRight hf⟩
            else .error (.nonIntegrable (binary .mul u v))
        | .div =>
            if !v.dependsOn var then do
              let ⟨f, hf⟩ ← antiderivativeIn var u
              return ⟨f / v, depth_fraction hf⟩
            else if !u.dependsOn var then do
              let ⟨g, hg⟩ ← reciprocalIn var u v
              if u.isNat 1 then return ⟨g, depth_underOne hg⟩
              else return ⟨u * g, depth_underNumerator hg⟩
            else .error (.nonIntegrable (binary .div u v))
        | .pow =>
            if !v.dependsOn var then
              match simplified : v.simplify with
              | .error limit => .error (.passLimit limit)
              | .ok w => do
                  match ← slopeIn var u with
                  | none => .error (.nonIntegrable (binary .pow u v))
                  | some slope =>
                      return ⟨(powerAntiderivative u w).overSlope slope,
                        depth_powerOfLinear simplified slope⟩
            else if !u.dependsOn var then do
              match ← slopeIn var v with
              | none => .error (.nonIntegrable (binary .pow u v))
              | some slope =>
                  return ⟨(binary .pow u v / apply .ln u).overSlope slope,
                    depth_exponentialOfLinear slope⟩
            else .error (.nonIntegrable (binary .pow u v))
termination_by (e.callDepth, e.nodeCount, 2)
decreasing_by
  all_goals
    apply workload_lt
    try have := nodeCount_pos u
    try simp only [callDepth, nodeCount] at *
    omega

/-- An antiderivative of one over an expression that depends on the variable. The numerator, which does
    not, is that of the quotient for which no rule may fit. -/
def reciprocalIn (var : String) (numerator denominator : Expr α) :
    Outcome α denominator.callDepth :=
  match denominator with
  | binary .pow u v =>
      if !v.dependsOn var then do
        let ⟨g, hg⟩ ← antiderivativeIn var (u ^ v.negatedExponent)
        return ⟨g, depth_negatedPower hg⟩
      else do
        match ← slopeIn var (binary .pow u v) with
        | none => .error (.nonIntegrable (numerator / binary .pow u v))
        | some slope =>
            return ⟨(apply .ln (binary .pow u v)).overSlope slope,
              depth_logarithm (binary .pow u v) slope⟩
  | v => do
      match ← slopeIn var v with
      | none => .error (.nonIntegrable (numerator / v))
      | some slope => return ⟨(apply .ln v).overSlope slope, depth_logarithm v slope⟩
termination_by (denominator.callDepth, denominator.nodeCount + 1, 3)
decreasing_by
  all_goals
    apply workload_lt
    try simp only [pow_def, callDepth, nodeCount]
    try have := callDepth_negatedExponent v
    try have := nodeCount_negatedExponent v
    omega

/-- The expression with all integrations and differentiations carried out, from the inside out. Other
    calls are left. -/
def resolveIn : (e : Expr α) → Except (CalculusCause α) (Resolved e)
  | number value => .ok ⟨number value, settles_number value⟩
  | symbol name => .ok ⟨symbol name, settles_symbol name⟩
  | neg u => do
      let ⟨r, hr⟩ ← resolveIn u
      return ⟨neg r, settles_neg hr⟩
  | apply function u => do
      let ⟨r, hr⟩ ← resolveIn u
      return ⟨apply function r, settles_apply hr⟩
  | binary op u v => do
      let ⟨r, hr⟩ ← resolveIn u
      let ⟨s, hs⟩ ← resolveIn v
      return ⟨binary op r s, settles_binary hr hs⟩
  | call name arguments =>
      match resolveAllIn arguments with
      | .error cause => .error cause
      | .ok ⟨resolved, h⟩ =>
          match known : operation? name resolved with
          | none => .ok ⟨call name resolved, settles_call h⟩
          | some (.integration, f, bound) => do
              let ⟨g, hg⟩ ← antiderivativeIn bound f
              return ⟨g, settles_operation h known hg⟩
          | some (.differentiation, f, bound) => do
              let ⟨g, hg⟩ ← derivativeIn bound f
              return ⟨g, settles_operation h known hg⟩
termination_by e => (e.callDepth, e.nodeCount, 0)
decreasing_by
  all_goals
    apply workload_lt
    try have := depth_operation? known
    try simp only [callDepth, nodeCount]
    omega

/-- The row of expressions with all integrations and differentiations carried out. -/
def resolveAllIn :
    (es : List (Expr α)) → Except (CalculusCause α) (ShallowAll α (callDepthOfAll es))
  | [] => .ok ⟨[], Nat.le_refl _⟩
  | first :: others => do
      let ⟨r, hr⟩ ← resolveIn first
      let ⟨rs, hrs⟩ ← resolveAllIn others
      return ⟨r :: rs, settles_cons hr hrs⟩
termination_by es => (callDepthOfAll es, nodeCountOfAll es, 1)
decreasing_by
  all_goals
    apply workload_lt
    have := nodeCount_pos first
    simp only [callDepthOfAll, nodeCountOfAll]
    omega

end

/-- The derivative of an expression by a variable, not simplified. -/
def derivative (e : Expr α) (var : String) : Except (CalculusCause α) (Expr α) :=
  (derivativeIn var e).map Subtype.val

/-- The slope of an expression that is linear in a variable; none if it is not, or if that is not
    found out. -/
def slope? (u : Expr α) (var : String) : Except (CalculusCause α) (Option α) := slopeIn var u

/-- An antiderivative of an expression by a variable, not simplified and without a constant. -/
def antiderivative (e : Expr α) (var : String) : Except (CalculusCause α) (Expr α) :=
  (antiderivativeIn var e).map Subtype.val

/-- An antiderivative of one over a denominator that depends on the variable, as a part of that of the
    quotient with the given numerator, which does not. -/
def reciprocal (numerator denominator : Expr α) (var : String) :
    Except (CalculusCause α) (Expr α) :=
  (reciprocalIn var numerator denominator).map Subtype.val

/-- The expression with all integrations and differentiations carried out, from the inside out. -/
def resolve (e : Expr α) : Except (CalculusCause α) (Expr α) :=
  (resolveIn e).map Subtype.val

/-- The row of expressions with all integrations and differentiations carried out. -/
def resolveAll (es : List (Expr α)) : Except (CalculusCause α) (List (Expr α)) :=
  (resolveAllIn es).map Subtype.val

/-! ### The rules without premises, and those for slopes and reciprocals of powers

The other rules follow in the module on equations. -/

theorem derivative_number (value : α) (var : String) :
    (number value).derivative var = .ok (.ofNat 0) := by
  simp only [derivative, derivativeIn]; rfl

theorem derivative_symbol (name var : String) :
    (symbol name : Expr α).derivative var =
      if name = var then .ok (.ofNat 1) else .ok (.ofNat 0) := by
  simp only [derivative, derivativeIn]
  split <;> rfl

/-- The slope is the simplified derivative, if that is a finite number other than zero. -/
theorem slope?_eq (u : Expr α) (var : String) :
    u.slope? var =
      if u.asSymbol? = some var then .ok (some (Scalar.ofNat 1))
      else
        match u.derivative var with
        | .error (.passLimit limit) => .error (.passLimit limit)
        | .error _ => .ok none
        | .ok du =>
            match du.simplify with
            | .error limit => .error (.passLimit limit)
            | .ok slope =>
                .ok (slope.asNumber?.filter fun a =>
                  Scalar.isFinite a && !(a == Scalar.ofNat 0)) := by
  simp only [slope?, derivative]
  rw [slopeIn]
  split
  · rfl
  · cases derivativeIn var u with
    | error cause => cases cause <;> rfl
    | ok du => rfl

theorem antiderivative_number (value : α) (var : String) :
    (number value).antiderivative var = .ok (number value * symbol var) := by
  simp only [antiderivative]
  rw [antiderivativeIn]; rfl

theorem antiderivative_symbol (name var : String) :
    (symbol name : Expr α).antiderivative var =
      if name = var then .ok (Elementary.square (symbol name) / .ofNat 2)
      else .ok (symbol name * symbol var) := by
  simp only [antiderivative]
  rw [antiderivativeIn]
  split <;> rfl

/-- One over a power is the power with the negative exponent. -/
theorem reciprocal_pow {u v : Expr α} {var : String} (numerator : Expr α)
    (free : v.dependsOn var = false) :
    reciprocal numerator (binary .pow u v) var =
      (u ^ v.negatedExponent).antiderivative var := by
  simp only [reciprocal, antiderivative]
  rw [reciprocalIn]
  simp only [free]
  show Except.map Subtype.val (Except.bind (antiderivativeIn var (u ^ v.negatedExponent)) _) = _
  cases antiderivativeIn var (u ^ v.negatedExponent) <;> rfl

theorem resolve_number (value : α) : (number value).resolve = .ok (number value) := by
  simp only [resolve, resolveIn]; rfl

theorem resolve_symbol (name : String) : (symbol name : Expr α).resolve = .ok (symbol name) := by
  simp only [resolve, resolveIn]; rfl

theorem resolveAll_nil : resolveAll ([] : List (Expr α)) = .ok [] := by
  simp only [resolveAll, resolveAllIn]; rfl

end Expr

end SymbolicCalculus
