/-
Module: SymbolicCalculus.Compile
Layer: Evaluation
Purpose: Functions of one variable made from text. The text is read and its calls are carried out once;
  what is left is a function of numbers that cannot fail.
Main exports: CompileOptions, Expr.function, Compiled, Compiled.ofText, Compiled.summary
-/
import SymbolicCalculus.Calculus
import SymbolicCalculus.Failure
import SymbolicCalculus.Text.Quoted

namespace SymbolicCalculus

/-- How a text is made into a function. -/
structure CompileOptions where
  /-- The expression is simplified first. -/
  simplify : Bool := true
  /-- The unit of angles. -/
  unit : AngleUnit := .radians
deriving DecidableEq, Repr, Inhabited

/-- The function that an expression describes if every symbol in it stands for the argument. -/
def Expr.function {α : Type} [Scalar α] (unit : AngleUnit) :
    Expr α → Except EvaluationCause (α → α)
  | .number value => .ok fun _ => value
  | .symbol _ => .ok fun x => x
  | .neg operand =>
      match operand.function unit with
      | .ok f => .ok fun x => -(f x)
      | .error cause => .error cause
  | .apply elementary operand =>
      match operand.function unit with
      | .ok f => .ok fun x => elementary.applyIn unit (f x)
      | .error cause => .error cause
  | .binary op left right =>
      match left.function unit with
      | .error cause => .error cause
      | .ok f =>
          match right.function unit with
          | .error cause => .error cause
          | .ok g => .ok fun x => op.apply (f x) (g x)
  | .call name _ => .error (.ofCall name)

/-- A function of one variable, and the expression from which it was made. -/
structure Compiled (α : Type) where
  expr : Expr α
  var : String
  function : α → α

namespace Compiled

variable {α : Type}

/-- The expression that a text is compiled from. -/
def prepare [Numeral α] (text : String) (options : CompileOptions) :
    Except (Failure α) (Expr α) :=
  match Expr.parse text with
  | .error fault => .error (.ofFormula fault)
  | .ok e =>
      match e.resolve with
      | .error cause => .error (.ofCalculus cause)
      | .ok resolved =>
          if options.simplify then
            match resolved.simplify with
            | .error limit => .error (.ofPassLimit limit)
            | .ok simplified => .ok simplified
          else .ok resolved

/-- The function of a variable that a text describes. The first of the other variables in it, if there
    is one, is not defined. -/
def ofText [Numeral α] (text var : String) (options : CompileOptions) :
    Except (Failure α) (Compiled α) :=
  match prepare text options with
  | .error failure => .error failure
  | .ok e =>
      match e.freeSymbols.find? (· != var) with
      | some other => .error (.ofEvaluation (.undefinedVariable other [var]))
      | none =>
          match e.function options.unit with
          | .error cause => .error (.ofEvaluation cause)
          | .ok function => .ok ⟨e, var, function⟩

/-- The function in one line: its expression and its variable. -/
def summary [Numeral α] (compiled : Compiled α) : String :=
  "CompiledFn \x7b expr: " ++ quoted compiled.expr.text ++ ", var: " ++ quoted compiled.var
    ++ ", .. \x7d"

end Compiled

end SymbolicCalculus
