/-
Module: SymbolicCalculus.Formula.Meaning
Layer: Formulas
Purpose: The expression that a formula stands for. Constants become numbers, known functions are applied,
  and the two operations of the calculus are kept as calls with a variable as the second argument. All
  other calls have no meaning.
Main exports: MeaningCause, Formula.toExpr, FormulaCause, Expr.parse
-/
import SymbolicCalculus.Expr
import SymbolicCalculus.Formula.Parser
import SymbolicCalculus.Text.Similar

namespace SymbolicCalculus

/-- Why a formula stands for no expression. -/
inductive MeaningCause where
  /-- No function has the name; functions with similar names are suggested. -/
  | unknownFunction (name : String) (suggestions : List String)
  /-- A function is given too many or too few arguments. -/
  | wrongArity (name : String) (expected given : Nat)
  /-- An operation of the calculus has something else than a variable as its second argument. -/
  | expectedVariable (name : String)
deriving DecidableEq, Repr, Inhabited

/-- The names of all functions and operations that resemble a name. -/
def similarFunctions (name : String) : List String :=
  (Elementary.all.map Elementary.name ++ [integralName, derivativeName]).filter
    fun candidate => similar candidate name

/-- The name is that of an operation of the calculus. -/
def isOperationName (name : String) : Bool := name == integralName || name == derivativeName

namespace Formula

variable {α : Type}

/-- The name that a formula consists of, in any number of parentheses, if it can be a variable. -/
def variableName? (formula : Formula α) : Option String :=
  match formula.innermost with
  | symbol name _ => if isConstantName name then none else some name
  | _ => none

variable [Scalar α]

/-- The expression that a formula stands for. The number of arguments and the variable of a call are
    looked at before its other arguments. -/
def toExpr : Formula α → Except (Located MeaningCause) (Expr α)
  | number value _ => .ok (.number value)
  | symbol name _ =>
      .ok (match namedConstant? name with
        | some value => .number value
        | none => .symbol name)
  | paren inner _ => inner.toExpr
  | neg operand _ =>
      match operand.toExpr with
      | .ok e => .ok (.neg e)
      | .error fault => .error fault
  | binary op _ left right =>
      match left.toExpr with
      | .error fault => .error fault
      | .ok l =>
          match right.toExpr with
          | .error fault => .error fault
          | .ok r => .ok (.binary op l r)
  | call name nameSpan arguments parenSpan =>
      if isOperationName name then
        match arguments with
        | [operand, by_] =>
            match by_.variableName? with
            | none => .error ⟨by_.span, .expectedVariable name⟩
            | some var =>
                match operand.toExpr with
                | .ok e => .ok (.call name [e, .symbol var])
                | .error fault => .error fault
        | _ => .error ⟨nameSpan.cover parenSpan, .wrongArity name 2 arguments.length⟩
      else
        match Elementary.ofName? name with
        | none => .error ⟨nameSpan, .unknownFunction name (similarFunctions name)⟩
        | some function =>
            match arguments with
            | [operand] =>
                match operand.toExpr with
                | .ok e => .ok (.apply function e)
                | .error fault => .error fault
            | _ => .error ⟨nameSpan.cover parenSpan, .wrongArity name 1 arguments.length⟩

end Formula

/-- Why a text stands for no expression. -/
inductive FormulaCause where
  | parse (cause : ParseCause)
  | meaning (cause : MeaningCause)
deriving DecidableEq, Repr, Inhabited

/-- The expression that a text stands for. -/
def Expr.parse {α : Type} [Numeral α] (text : String) : Except (Located FormulaCause) (Expr α) :=
  match Formula.parse text with
  | .error fault => .error ⟨fault.span, .parse fault.cause⟩
  | .ok formula =>
      match formula.toExpr with
      | .error fault => .error ⟨fault.span, .meaning fault.cause⟩
      | .ok e => .ok e

end SymbolicCalculus
