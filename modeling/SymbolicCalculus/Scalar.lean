/-
Module: SymbolicCalculus.Scalar
Layer: Numbers
Purpose: What the library asks of its numbers. Everything above this module is written for any type of
  numbers with these operations, so that the same definitions run on machine numbers and can be
  reasoned about over exact ones. The class holds operations only and promises no laws.
Main exports: Scalar, Scalar.same, BinaryOp.apply, AngleUnit.toRadians, AngleUnit.ofRadians,
  Elementary.applyIn, namedConstant?, Numeral
-/
import SymbolicCalculus.Elementary
import SymbolicCalculus.Operator

namespace SymbolicCalculus

/-- Numbers on which expressions can be built, simplified and given values. A type of exact numbers
    needs an element that is not finite, to answer where an operation has no result. -/
class Scalar (α : Type) extends Add α, Sub α, Mul α, Div α, Neg α, BEq α where
  /-- The whole number as a number of this type. -/
  ofNat : Nat → α
  /-- The power `base ^ exponent`. -/
  pow : α → α → α
  /-- The value of an elementary function, with angles in radians. -/
  apply : Elementary → α → α
  /-- The circle constant. -/
  pi : α
  /-- The base of the natural logarithm. -/
  e : α
  /-- The element stands for no number at all. Such an element may differ from itself under `==`. -/
  isNaN : α → Bool
  /-- The element is a number, and not an infinity. -/
  isFinite : α → Bool
  /-- The number is written with a minus sign. A zero can have one. -/
  hasMinus : α → Bool
  /-- The number is less than zero. -/
  belowZero : α → Bool
  /-- The number is a finite whole number. -/
  isWhole : α → Bool
  /-- The number is a finite even whole number. -/
  isEven : α → Bool

namespace Scalar

variable {α : Type} [Scalar α]

/-- Equality of numbers as parts of a tree: equal in value, or both standing for no number. -/
def same (a b : α) : Bool := a == b || (isNaN a && isNaN b)

end Scalar

variable {α : Type} [Scalar α]

/-- The value of a binary operator. -/
def BinaryOp.apply : BinaryOp → α → α → α
  | .add, a, b => a + b
  | .sub, a, b => a - b
  | .mul, a, b => a * b
  | .div, a, b => a / b
  | .pow, a, b => Scalar.pow a b

/-- An angle in this unit, in radians. -/
def AngleUnit.toRadians : AngleUnit → α → α
  | .radians, angle => angle
  | .degrees, angle => angle * (Scalar.pi / Scalar.ofNat 180)

/-- An angle in radians, in this unit. -/
def AngleUnit.ofRadians : AngleUnit → α → α
  | .radians, angle => angle
  | .degrees, angle => angle * (Scalar.ofNat 180 / Scalar.pi)

/-- The value of an elementary function, with angles in the given unit. -/
def Elementary.applyIn (function : Elementary) (unit : AngleUnit) (x : α) : α :=
  if function.takesAngle then Scalar.apply function (unit.toRadians x)
  else if function.returnsAngle then unit.ofRadians (Scalar.apply function x)
  else Scalar.apply function x

/-- The value of a named constant. Names of constants are never variables. -/
def namedConstant? : String → Option α
  | "pi" | "PI" => some Scalar.pi
  | "e" | "E" => some Scalar.e
  | _ => none

/-- The name is that of a constant. -/
def isConstantName (name : String) : Bool := ["pi", "PI", "e", "E"].contains name

/-- Numbers that can be written and read. -/
class Numeral (α : Type) extends Scalar α where
  /-- The text of the number. -/
  text : α → String
  /-- The number that a literal of digits with at most one point stands for; none if it is too large. -/
  ofLiteral? : String → Option α

end SymbolicCalculus
