/-
Module: SymbolicCalculus.Formula.Cause
Layer: Formulas
Purpose: The reasons for which a text is no formula.
Main exports: ParseCause
-/
import SymbolicCalculus.Token
import SymbolicCalculus.Text.Located

namespace SymbolicCalculus

/-- Why a text is no formula. -/
inductive ParseCause where
  /-- The text holds no token but blanks. -/
  | emptyExpression
  /-- The text ends where an operand should be. -/
  | unexpectedEnd
  /-- A formula has ended, but the text goes on. -/
  | expectedEnd
  /-- A token stands where only tokens of other kinds can. -/
  | unexpectedToken (expected : List TokenKind) (found : TokenKind)
  /-- A parenthesis has no partner. -/
  | unclosedParenthesis (opening : Bool)
  /-- Nothing stands between two parentheses. -/
  | emptyParenthesis
  /-- A literal is too large for a number. -/
  | numberOutOfRange
deriving DecidableEq, Repr, Inhabited

end SymbolicCalculus
