/-
Module: SymbolicCalculus.Calculus.Cause
Layer: Calculus
Purpose: The reasons for which an operation of the calculus has no result.
Main exports: CalculusCause
-/
import SymbolicCalculus.Simplify

namespace SymbolicCalculus

/-- Why a derivative or an antiderivative is not found. -/
inductive CalculusCause (α : Type) where
  /-- The derivative of a function or call is not known. -/
  | unsupportedDerivative (name : String)
  /-- No rule of integration fits the expression. -/
  | nonIntegrable (expr : Expr α)
  /-- A simplification on the way did not come to rest. -/
  | passLimit (limit : PassLimit α)
deriving Repr

instance {α : Type} : Inhabited (CalculusCause α) := ⟨.unsupportedDerivative default⟩

end SymbolicCalculus
