/-
Module: SymbolicCalculus.Expr.Printer
Layer: Expressions
Purpose: Writing expressions as formulas, with no more parentheses than reading them back takes; only
  negative numbers are always put into parentheses when they are operands.
Main exports: Expr.text, Expr.needsParens
-/
import SymbolicCalculus.Expr

namespace SymbolicCalculus.Expr

variable {α : Type}

/-- How tightly the outermost sign of the text binds; none if no operator can split the text. -/
def outermost? [Scalar α] : Expr α → Option Precedence
  | number value => if Scalar.hasMinus value then some .neg else none
  | binary op _ _ => some op.precedence
  | neg _ => some .neg
  | symbol _ | apply _ _ | call _ _ => none

/-- The expression is a number that is written with a minus sign. -/
def isMinusNumber [Scalar α] : Expr α → Bool
  | number value => Scalar.hasMinus value
  | _ => false

/-- The side of an operator on which an operand stands. -/
inductive Side where
  | left
  | right
deriving DecidableEq, Repr, Inhabited

/-- The side on which an operator of the same precedence may stand without parentheses. -/
def Side.ofAssociativity : Associativity → Side
  | .left => .left
  | .right => .right

/-- The expression has to be in parentheses as an operand of an operator of the given precedence and
    associativity. -/
def needsParens [Scalar α] (operand : Expr α) (outer : Precedence) (grouping : Associativity)
    (side : Side) : Bool :=
  operand.isMinusNumber ||
    match operand.outermost? with
    | none => false
    | some inner => inner < outer || (inner == outer && side != .ofAssociativity grouping)

/-- A text in parentheses, if it needs them. -/
def parenthesize (needed : Bool) (text : String) : String :=
  if needed then "(" ++ text ++ ")" else text

variable [Numeral α]

mutual

/-- The text of an expression. The operand of a minus sign is written like a right operand, so that two
    minus signs never stand side by side. -/
def text : Expr α → String
  | number value => Numeral.text value
  | symbol name => name
  | neg operand => "-" ++ parenthesize (operand.needsParens .neg .left .right) operand.text
  | apply function operand => function.name ++ "(" ++ operand.text ++ ")"
  | binary op left right =>
      parenthesize (left.needsParens op.precedence op.associativity .left) left.text
        ++ op.spaced
        ++ parenthesize (right.needsParens op.precedence op.associativity .right) right.text
  | call name arguments => name ++ "(" ++ argumentsText arguments ++ ")"

/-- The texts of arguments with commas between them. -/
def argumentsText : List (Expr α) → String
  | [] => ""
  | [last] => last.text
  | first :: others => first.text ++ ", " ++ argumentsText others

end

end SymbolicCalculus.Expr
