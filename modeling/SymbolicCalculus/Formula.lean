/-
Module: SymbolicCalculus.Formula
Layer: Formulas
Purpose: Formulas as they are written: parentheses are kept, names are not looked up, and every part
  knows its place in the text.
Main exports: Formula, Formula.span, Formula.innermost
-/
import SymbolicCalculus.Operator
import SymbolicCalculus.Text.Span

namespace SymbolicCalculus

/-- A formula over numbers of type `α`. -/
inductive Formula (α : Type) where
  /-- A number. -/
  | number (value : α) (span : Span)
  /-- A name that is not called. -/
  | symbol (name : String) (span : Span)
  /-- A formula in parentheses; the region includes them. -/
  | paren (inner : Formula α) (span : Span)
  /-- A call of a name; the second region is that of the parentheses with all between them. -/
  | call (name : String) (nameSpan : Span) (arguments : List (Formula α)) (parenSpan : Span)
  /-- A minus sign before an operand. -/
  | neg (operand : Formula α) (signSpan : Span)
  /-- An operator between two operands. -/
  | binary (op : BinaryOp) (opSpan : Span) (left right : Formula α)
deriving Repr

namespace Formula

variable {α : Type}

instance [Inhabited α] : Inhabited (Formula α) := ⟨.number default default⟩

/-- The region of the whole formula. -/
def span : Formula α → Span
  | number _ span => span
  | symbol _ span => span
  | paren _ span => span
  | call _ nameSpan _ parenSpan => nameSpan.cover parenSpan
  | neg operand signSpan => signSpan.cover operand.span
  | binary _ _ left right => left.span.cover right.span

/-- The formula without the parentheses around it. -/
def innermost : Formula α → Formula α
  | paren inner _ => inner.innermost
  | formula => formula

/-- What is left has no parentheses around it. -/
theorem innermost_ne_paren (formula inner : Formula α) (span : Span) :
    formula.innermost ≠ paren inner span := by
  fun_induction innermost formula with
  | case1 _ _ ih => exact ih
  | case2 formula bare => exact fun same => bare _ _ same

end Formula

end SymbolicCalculus
