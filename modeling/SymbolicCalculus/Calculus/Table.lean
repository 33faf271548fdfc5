/-
Module: SymbolicCalculus.Calculus.Table
Layer: Calculus
Purpose: The derivatives and antiderivatives of the elementary functions, as far as they are known.
Main exports: Elementary.derivativeAt?, Elementary.antiderivativeAt?
-/
import SymbolicCalculus.Expr

namespace SymbolicCalculus

namespace Elementary

variable {α : Type} [Scalar α]

/-- The square of an expression. -/
def square (u : Expr α) : Expr α := u ^ (.ofNat 2 : Expr α)

/-- The derivative of a function by its argument, at the argument `u`. The absolute value has none. -/
def derivativeAt? (u : Expr α) : Elementary → Option (Expr α)
  | sin => some (.apply cos u)
  | cos => some (-.apply sin u)
  | tan => some (.ofNat 1 / square (.apply cos u))
  | asin => some (.ofNat 1 / .apply sqrt (.ofNat 1 - square u))
  | acos => some (-(.ofNat 1 / .apply sqrt (.ofNat 1 - square u)))
  | atan => some (.ofNat 1 / (.ofNat 1 + square u))
  | sinh => some (.apply cosh u)
  | cosh => some (.apply sinh u)
  | tanh => some (.ofNat 1 / square (.apply cosh u))
  | exp => some (.apply exp u)
  | ln => some (.ofNat 1 / u)
  | log10 => some (.ofNat 1 / (u * .apply ln (.ofNat 10)))
  | sqrt => some (.ofNat 1 / (.ofNat 2 * .apply sqrt u))
  | abs => none

/-- One and a half. -/
def threeHalves : α := Scalar.ofNat 3 / Scalar.ofNat 2

/-- An antiderivative of a function by its argument, at the argument `u`. -/
def antiderivativeAt? (u : Expr α) : Elementary → Option (Expr α)
  | sin => some (-.apply cos u)
  | cos => some (.apply sin u)
  | exp => some (.apply exp u)
  | sinh => some (.apply cosh u)
  | cosh => some (.apply sinh u)
  | sqrt => some (u ^ (.number threeHalves : Expr α) / .number threeHalves)
  | ln => some (u * .apply ln u - u)
  | _ => none

theorem callDepth_derivativeAt? {u result : Expr α} {function : Elementary}
    (known : function.derivativeAt? u = some result) : result.callDepth = u.callDepth := by
  cases function <;> simp only [derivativeAt?, Option.some.injEq, reduceCtorEq] at known <;>
    subst known <;>
    simp [square, Expr.callDepth, Expr.ofNat, Expr.div_def, Expr.mul_def, Expr.add_def,
      Expr.sub_def, Expr.pow_def]

theorem callDepth_antiderivativeAt? {u result : Expr α} {function : Elementary}
    (known : function.antiderivativeAt? u = some result) : result.callDepth = u.callDepth := by
  cases function <;> simp only [antiderivativeAt?, Option.some.injEq, reduceCtorEq] at known <;>
    subst known <;>
    simp [Expr.callDepth, Expr.div_def, Expr.mul_def, Expr.sub_def, Expr.pow_def]

end Elementary

end SymbolicCalculus
