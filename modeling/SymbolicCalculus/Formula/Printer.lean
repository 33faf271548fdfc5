/-
Module: SymbolicCalculus.Formula.Printer
Layer: Formulas
Purpose: Writing formulas. Exactly the parentheses that the formula holds are written, and blanks stand
  around the operators of sums and products and behind commas only.
Main exports: Formula.text, Formula.argumentsText
-/
import SymbolicCalculus.Formula
import SymbolicCalculus.Scalar

namespace SymbolicCalculus.Formula

variable {α : Type} [Numeral α]

mutual

/-- The text of a formula. -/
def text : Formula α → String
  | number value _ => Numeral.text value
  | symbol name _ => name
  | paren inner _ => "(" ++ inner.text ++ ")"
  | call name _ arguments _ => name ++ "(" ++ argumentsText arguments ++ ")"
  | neg operand _ => "-" ++ operand.text
  | binary op _ left right => left.text ++ op.spaced ++ right.text

/-- The texts of arguments with commas between them. -/
def argumentsText : List (Formula α) → String
  | [] => ""
  | [last] => last.text
  | first :: others => first.text ++ ", " ++ argumentsText others

end

end SymbolicCalculus.Formula
