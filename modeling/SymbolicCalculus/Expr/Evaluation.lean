/-
Module: SymbolicCalculus.Expr.Evaluation
Layer: Evaluation
Purpose: The value of an expression in a context, and the slope of an expression at the value that a
  variable has there. Arithmetic itself never fails: where a number has no result, the answer is one of
  the elements that the numbers provide for it.
Main exports: EvaluationCause, Expr.evaluate, Expr.usualStep, Expr.slopeAt
-/
import SymbolicCalculus.Context
import SymbolicCalculus.Expr

namespace SymbolicCalculus

/-- Why an expression has no value. -/
inductive EvaluationCause where
  /-- A variable has no value; variables with similar names are suggested. -/
  | undefinedVariable (name : String) (suggestions : List String)
  /-- An integration has not been carried out. -/
  | unresolvedIntegral
  /-- Another call has not been carried out. -/
  | unresolvedCall (name : String)
deriving DecidableEq, Repr, Inhabited

/-- Why a call has no value. -/
def EvaluationCause.ofCall (name : String) : EvaluationCause :=
  if name = integralName then unresolvedIntegral else unresolvedCall name

/-- Why a variable has no value in a context that does not bind it. -/
def EvaluationCause.ofVariable {α : Type} (name : String) (context : Context α) : EvaluationCause :=
  undefinedVariable name (context.similarNames name)

namespace Expr

variable {α : Type} [Scalar α]

/-- The value of an expression. Of several reasons against it the leftmost is given. -/
def evaluate (context : Context α) : Expr α → Except EvaluationCause α
  | number value => .ok value
  | symbol name =>
      match context.get? name with
      | some value => .ok value
      | none => .error (.ofVariable name context)
  | neg operand =>
      match operand.evaluate context with
      | .ok value => .ok (-value)
      | .error cause => .error cause
  | apply function operand =>
      match operand.evaluate context with
      | .ok value => .ok (function.applyIn context.unit value)
      | .error cause => .error cause
  | binary op left right =>
      match left.evaluate context with
      | .error cause => .error cause
      | .ok a =>
          match right.evaluate context with
          | .error cause => .error cause
          | .ok b => .ok (op.apply a b)
  | call name _ => .error (.ofCall name)

/-- The usual distance of the two points between which a slope is taken. -/
def usualStep : α := Scalar.ofNat 1 / Scalar.ofNat 100000

/-- The slope between the values at two points at the distance `step` on either side of the value that
    the variable has in the context. -/
def slopeAt (e : Expr α) (var : String) (step : α) (context : Context α) :
    Except EvaluationCause α :=
  match context.get? var with
  | none => .error (.ofVariable var context)
  | some value =>
      match e.evaluate (context.set var (value + step)) with
      | .error cause => .error cause
      | .ok ahead =>
          match e.evaluate (context.set var (value - step)) with
          | .error cause => .error cause
          | .ok behind => .ok ((ahead - behind) / (Scalar.ofNat 2 * step))

end Expr

end SymbolicCalculus
