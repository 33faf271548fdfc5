/-
Module: SymbolicCalculus.Elementary
Layer: Numbers
Purpose: The elementary functions of one argument that formulas may call, their names, and which of
  them read or answer an angle.
Main exports: Elementary, Elementary.all, Elementary.name, Elementary.ofName?, Elementary.takesAngle,
  Elementary.returnsAngle, AngleUnit
-/

namespace SymbolicCalculus

/-- An elementary function of one argument. -/
inductive Elementary where
  | sin | cos | tan
  | asin | acos | atan
  | sinh | cosh | tanh
  | exp | ln | log10
  | sqrt | abs
deriving DecidableEq, Repr, Inhabited

namespace Elementary

/-- Every elementary function, in the order in which suggestions name them. -/
def all : List Elementary :=
  [sin, cos, tan, asin, acos, atan, sinh, cosh, tanh, exp, ln, log10, sqrt, abs]

/-- The name under which the function is printed. -/
def name : Elementary → String
  | sin => "sin"
  | cos => "cos"
  | tan => "tan"
  | asin => "asin"
  | acos => "acos"
  | atan => "atan"
  | sinh => "sinh"
  | cosh => "cosh"
  | tanh => "tanh"
  | exp => "exp"
  | ln => "ln"
  | log10 => "log10"
  | sqrt => "sqrt"
  | abs => "abs"

/-- The function that a name calls: its printed name, or a second name that four of them have. -/
def ofName? : String → Option Elementary
  | "arcsin" => some asin
  | "arccos" => some acos
  | "arctan" => some atan
  | "log" => some ln
  | name => all.find? fun function => function.name == name

/-- The function reads an angle. -/
def takesAngle : Elementary → Bool
  | sin | cos | tan => true
  | _ => false

/-- The function answers an angle. -/
def returnsAngle : Elementary → Bool
  | asin | acos | atan => true
  | _ => false

end Elementary

/-- The unit in which a context measures angles. Symbolic work always uses radians; the unit matters
    only where an expression is given a value. -/
inductive AngleUnit where
  | radians
  | degrees
deriving DecidableEq, Repr, Inhabited

/-- The name of the unit. -/
def AngleUnit.name : AngleUnit → String
  | radians => "radians"
  | degrees => "degrees"

end SymbolicCalculus
