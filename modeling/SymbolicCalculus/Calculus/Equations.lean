/-
Module: SymbolicCalculus.Calculus.Equations
Layer: Calculus
Purpose: The rules of the calculus as equations, one for each form of an expression. The definitions
  carry bounds on the depth of calls through their recursion; these equations, together with the first
  few beside the definitions, leave the bounds out and are all that has to be known of them.
Main exports: Expr.derivative_add and the other rules of differentiation, Expr.antiderivative_add and
  the other rules of integration, Expr.reciprocal_of_not_pow, Expr.resolve_call and the other rules of
  resolution
-/
import SymbolicCalculus.Calculus

namespace SymbolicCalculus.Expr

variable {α : Type} [Scalar α]

/-! ### Derivatives -/

theorem derivative_neg (u : Expr α) (var : String) :
    (neg u).derivative var = do
      let du ← u.derivative var
      return -du := by
  simp only [derivative, derivativeIn]
  cases derivativeIn var u <;> rfl

/-- The chain rule. -/
theorem derivative_apply (function : Elementary) (u : Expr α) (var : String) :
    (apply function u).derivative var =
      match function.derivativeAt? u with
      | none => .error (.unsupportedDerivative function.name)
      | some outer => do
          let du ← u.derivative var
          return outer * du := by
  simp only [derivative, derivativeIn]
  split
  · next known => simp only [known]; rfl
  · next outer known =>
    simp only [known]
    cases derivativeIn var u <;> rfl

theorem derivative_add (u v : Expr α) (var : String) :
    (binary .add u v).derivative var = do
      let du ← u.derivative var
      let dv ← v.derivative var
      return du + dv := by
  simp only [derivative, derivativeIn]
  cases derivativeIn var u <;> cases derivativeIn var v <;> rfl

theorem derivative_sub (u v : Expr α) (var : String) :
    (binary .sub u v).derivative var = do
      let du ← u.derivative var
      let dv ← v.derivative var
      return du - dv := by
  simp only [derivative, derivativeIn]
  cases derivativeIn var u <;> cases derivativeIn var v <;> rfl

/-- A sum or a difference is differentiated operand by operand. -/
theorem derivative_additive {op : BinaryOp} (additive : op = .add ∨ op = .sub) (u v : Expr α)
    (var : String) :
    (binary op u v).derivative var = do
      let du ← u.derivative var
      let dv ← v.derivative var
      return binary op du dv := by
  rcases additive with rfl | rfl
  · exact derivative_add u v var
  · exact derivative_sub u v var

/-- The product rule. -/
theorem derivative_mul (u v : Expr α) (var : String) :
    (binary .mul u v).derivative var = do
      let du ← u.derivative var
      let dv ← v.derivative var
      return du * v + u * dv := by
  simp only [derivative, derivativeIn]
  cases derivativeIn var u <;> cases derivativeIn var v <;> rfl

/-- The quotient rule. A denominator without the variable is a factor. -/
theorem derivative_div (u v : Expr α) (var : String) :
    (binary .div u v).derivative var =
      if v.dependsOn var then do
        let du ← u.derivative var
        let dv ← v.derivative var
        return (du * v - u * dv) / Elementary.square v
      else do
        let du ← u.derivative var
        return du / v := by
  simp only [derivative, derivativeIn]
  split
  · cases derivativeIn var u <;> cases derivativeIn var v <;> rfl
  · cases derivativeIn var u <;> rfl

/-- The power rule, in the simplest of its forms that applies. -/
theorem derivative_pow (u v : Expr α) (var : String) :
    (binary .pow u v).derivative var =
      if !v.dependsOn var then do
        let du ← u.derivative var
        return v * u ^ (v - .ofNat 1) * du
      else if !u.dependsOn var then do
        let dv ← v.derivative var
        return u ^ v * apply .ln u * dv
      else do
        let du ← u.derivative var
        let dv ← v.derivative var
        return u ^ v * (dv * apply .ln u + v * du / u) := by
  simp only [derivative, derivativeIn]
  split
  · cases derivativeIn var u <;> rfl
  · split
    · cases derivativeIn var v <;> rfl
    · cases derivativeIn var u <;> cases derivativeIn var v <;> rfl

/-- The derivative of an integral by the variable of integration is the integrand. Every other operation
    is carried out first. -/
theorem derivative_call (name : String) (arguments : List (Expr α)) (var : String) :
    (call name arguments).derivative var =
      match operation? name arguments with
      | none => .error (.unsupportedDerivative name)
      | some (.integration, f, bound) =>
          if bound = var then .ok f
          else (f.antiderivative bound).bind fun g => g.derivative var
      | some (.differentiation, f, bound) =>
          (f.derivative bound).bind fun g => g.derivative var := by
  simp only [derivative, derivativeIn]
  split
  · next known => simp only [known]; rfl
  · next f bound known =>
    simp only [known]
    split
    · rfl
    · simp only [antiderivative]
      cases antiderivativeIn bound f with
      | error cause => rfl
      | ok g =>
        show _ = Except.map Subtype.val (derivativeIn var g.val)
        simp only [bind, Except.bind]
        cases derivativeIn var g.val <;> rfl
  · next f bound known =>
    simp only [known]
    cases derivativeIn bound f with
    | error cause => rfl
    | ok g =>
      show _ = Except.map Subtype.val (derivativeIn var g.val)
      simp only [bind, Except.bind]
      cases derivativeIn var g.val <;> rfl

/-! ### Antiderivatives -/

/-- The calls in an operation are carried out first. -/
theorem antiderivative_call (name : String) (arguments : List (Expr α)) (var : String) :
    (call name arguments).antiderivative var =
      (call name arguments).resolve.bind fun r =>
        if r.isCall then .error (.nonIntegrable (call name arguments)) else r.antiderivative var := by
  simp only [antiderivative, resolve]
  rw [antiderivativeIn]
  cases resolveIn (call name arguments) with
  | error cause => rfl
  | ok r =>
    obtain ⟨r, hr⟩ := r
    show Except.map Subtype.val (if _ : r.isCall = true then _ else _) =
      if r.isCall = true then _ else _
    split
    · rfl
    · show _ = Except.map Subtype.val (antiderivativeIn var r)
      simp only [bind, Except.bind]
      cases antiderivativeIn var r <;> rfl

theorem antiderivative_neg (u : Expr α) (var : String) :
    (neg u).antiderivative var =
      if !(neg u).dependsOn var then .ok (neg u * symbol var)
      else do
        let g ← u.antiderivative var
        return -g := by
  simp only [antiderivative]
  rw [antiderivativeIn]
  split
  · rfl
  · cases antiderivativeIn var u <;> rfl

/-- A function of a linear argument is integrated by its table. -/
theorem antiderivative_apply (function : Elementary) (u : Expr α) (var : String) :
    (apply function u).antiderivative var =
      if !(apply function u).dependsOn var then .ok (apply function u * symbol var)
      else
        match function.antiderivativeAt? u with
        | none => .error (.nonIntegrable (apply function u))
        | some outer => do
            match ← u.slope? var with
            | none => .error (.nonIntegrable (apply function u))
            | some slope => return outer.overSlope slope := by
  simp only [antiderivative, slope?]
  rw [antiderivativeIn]
  split
  · rfl
  · split
    · next known => simp only [known]; rfl
    · next outer known =>
      simp only [known]
      cases slopeIn var u with
      | error cause => rfl
      | ok slope => cases slope <;> rfl

/-- An expression without the variable is a factor. -/
theorem antiderivative_binary_of_not_dependsOn {op : BinaryOp} {u v : Expr α} {var : String}
    (free : (binary op u v).dependsOn var = false) :
    (binary op u v).antiderivative var = .ok (binary op u v * symbol var) := by
  simp only [antiderivative]
  rw [antiderivativeIn.eq_def]
  simp only [free]; rfl

theorem antiderivative_add {u v : Expr α} {var : String}
    (depends : (binary .add u v).dependsOn var = true) :
    (binary .add u v).antiderivative var = do
      let f ← u.antiderivative var
      let g ← v.antiderivative var
      return f + g := by
  simp only [antiderivative]
  rw [antiderivativeIn]
  simp only [depends]
  cases antiderivativeIn var u <;> cases antiderivativeIn var v <;> rfl

theorem antiderivative_sub {u v : Expr α} {var : String}
    (depends : (binary .sub u v).dependsOn var = true) :
    (binary .sub u v).antiderivative var = do
      let f ← u.antiderivative var
      let g ← v.antiderivative var
      return f - g := by
  simp only [antiderivative]
  rw [antiderivativeIn]
  simp only [depends]
  cases antiderivativeIn var u <;> cases antiderivativeIn var v <;> rfl

/-- A sum or a difference with the variable is integrated operand by operand. -/
theorem antiderivative_additive {op : BinaryOp} (additive : op = .add ∨ op = .sub) {u v : Expr α}
    {var : String} (depends : (binary op u v).dependsOn var = true) :
    (binary op u v).antiderivative var = do
      let f ← u.antiderivative var
      let g ← v.antiderivative var
      return binary op f g := by
  rcases additive with rfl | rfl
  · exact antiderivative_add depends
  · exact antiderivative_sub depends

/-- A factor without the variable is kept; it comes first in the result. -/
theorem antiderivative_mul {u v : Expr α} {var : String}
    (depends : (binary .mul u v).dependsOn var = true) :
    (binary .mul u v).antiderivative var =
      if !u.dependsOn var then do
        let g ← v.antiderivative var
        return u * g
      else if !v.dependsOn var then do
        let f ← u.antiderivative var
        return v * f
      else .error (.nonIntegrable (binary .mul u v)) := by
  simp only [antiderivative]
  rw [antiderivativeIn]
  simp only [depends]
  show Except.map Subtype.val (if (!u.dependsOn var) = true then _ else _) = _
  split
  · cases antiderivativeIn var v <;> rfl
  · split
    · cases antiderivativeIn var u <;> rfl
    · rfl

theorem antiderivative_div {u v : Expr α} {var : String}
    (depends : (binary .div u v).dependsOn var = true) :
    (binary .div u v).antiderivative var =
      if !v.dependsOn var then do
        let f ← u.antiderivative var
        return f / v
      else if !u.dependsOn var then do
        let g ← reciprocal u v var
        return if u.isNat 1 then g else u * g
      else .error (.nonIntegrable (binary .div u v)) := by
  simp only [antiderivative, reciprocal]
  rw [antiderivativeIn]
  simp only [depends]
  show Except.map Subtype.val (if (!v.dependsOn var) = true then _ else _) = _
  split
  · cases antiderivativeIn var u <;> rfl
  · split
    · cases reciprocalIn var u v with
      | error cause => rfl
      | ok g =>
        simp only [bind, Except.bind]
        cases u.isNat 1 <;> rfl
    · rfl

/-- A power with a constant exponent, or one with a constant base. -/
theorem antiderivative_pow {u v : Expr α} {var : String}
    (depends : (binary .pow u v).dependsOn var = true) :
    (binary .pow u v).antiderivative var =
      if !v.dependsOn var then
        match v.simplify with
        | .error limit => .error (.passLimit limit)
        | .ok w => do
            match ← u.slope? var with
            | none => .error (.nonIntegrable (binary .pow u v))
            | some slope => return (powerAntiderivative u w).overSlope slope
      else if !u.dependsOn var then do
        match ← v.slope? var with
        | none => .error (.nonIntegrable (binary .pow u v))
        | some slope => return (binary .pow u v / apply .ln u).overSlope slope
      else .error (.nonIntegrable (binary .pow u v)) := by
  simp only [antiderivative, slope?]
  rw [antiderivativeIn]
  simp only [depends]
  show Except.map Subtype.val (if (!v.dependsOn var) = true then _ else _) = _
  split
  · split
    · next limit stuck => simp only [stuck]; rfl
    · next w simplified =>
      simp only [simplified]
      cases slopeIn var u with
      | error cause => rfl
      | ok slope => cases slope <;> rfl
  · split
    · cases slopeIn var v with
      | error cause => rfl
      | ok slope => cases slope <;> rfl
    · rfl

/-- One over any other linear expression leads to the logarithm. -/
theorem reciprocal_of_not_pow {denominator : Expr α} {var : String} (numerator : Expr α)
    (other : ∀ u v, denominator = binary .pow u v → v.dependsOn var = true) :
    reciprocal numerator denominator var = do
      match ← denominator.slope? var with
      | none => .error (.nonIntegrable (numerator / denominator))
      | some slope => return (apply .ln denominator).overSlope slope := by
  simp only [reciprocal, slope?]
  rw [reciprocalIn.eq_def]
  split
  · next u v =>
    simp only [other u v rfl]
    show Except.map Subtype.val (Except.bind (slopeIn var (binary .pow u v)) _) = _
    cases slopeIn var (binary .pow u v) with
    | error cause => rfl
    | ok slope => cases slope <;> rfl
  · cases slopeIn var denominator with
    | error cause => rfl
    | ok slope => cases slope <;> rfl

/-! ### Resolution -/

theorem resolve_neg (u : Expr α) :
    (neg u).resolve = do
      let r ← u.resolve
      return neg r := by
  simp only [resolve, resolveIn]
  cases resolveIn u <;> rfl

theorem resolve_apply (function : Elementary) (u : Expr α) :
    (apply function u).resolve = do
      let r ← u.resolve
      return apply function r := by
  simp only [resolve, resolveIn]
  cases resolveIn u <;> rfl

theorem resolve_binary (op : BinaryOp) (u v : Expr α) :
    (binary op u v).resolve = do
      let r ← u.resolve
      let s ← v.resolve
      return binary op r s := by
  simp only [resolve, resolveIn]
  cases resolveIn u <;> cases resolveIn v <;> rfl

/-- The calls in the arguments are carried out first, and then the operation, if the call asks for
    one. -/
theorem resolve_call (name : String) (arguments : List (Expr α)) :
    (call name arguments).resolve =
      (resolveAll arguments).bind fun resolved =>
        match operation? name resolved with
        | none => .ok (call name resolved)
        | some (.integration, f, bound) => f.antiderivative bound
        | some (.differentiation, f, bound) => f.derivative bound := by
  simp only [resolve, resolveAll, resolveIn]
  cases resolveAllIn arguments with
  | error cause => rfl
  | ok resolved =>
    obtain ⟨resolved, h⟩ := resolved
    show _ = Except.bind (Except.ok resolved) _
    dsimp only [Except.bind]
    split
    · next known => simp only [known]; rfl
    · next f bound known =>
      simp only [known, antiderivative]
      cases antiderivativeIn bound f <;> rfl
    · next f bound known =>
      simp only [known, derivative]
      cases derivativeIn bound f <;> rfl

theorem resolveAll_cons (first : Expr α) (others : List (Expr α)) :
    resolveAll (first :: others) = do
      let r ← first.resolve
      let rs ← resolveAll others
      return r :: rs := by
  simp only [resolveAll, resolve, resolveAllIn]
  cases resolveIn first <;> cases resolveAllIn others <;> rfl

end SymbolicCalculus.Expr
