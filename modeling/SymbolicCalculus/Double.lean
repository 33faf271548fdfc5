/-
Module: SymbolicCalculus.Double
Layer: Numbers
Purpose: The machine numbers on which the program runs: 64-bit binary floating-point numbers, with the
  functions of the mathematical library, written with the fewest digits that read back.
Main exports: Double, Double.text, Double.ofLiteral?, the instance Numeral Double
-/
import SymbolicCalculus.Scalar
import SymbolicCalculus.Decimal.Positional

namespace SymbolicCalculus

/-- A 64-bit floating-point number. A value that is no number carries a sign like any other; `Float`
    has one such value only, so its sign is kept beside it. -/
@[ext] structure Double where
  value : Float
  /-- The sign of a value that is no number. -/
  minusOfNaN : Bool
  /-- All other values have their signs themselves. -/
  onlyNaN : minusOfNaN = true → value.isNaN = true
deriving DecidableEq

namespace Double

/-- The number as an element without a sign of its own. -/
def ofFloat (value : Float) : Double := ⟨value, false, fun minus => nomatch minus⟩

instance : Inhabited Double := ⟨ofFloat default⟩

/-- The number, with the given sign if it is no number. -/
def withSign (value : Float) (minus : Bool) : Double :=
  ⟨value, value.isNaN && minus, fun both => (Bool.and_eq_true_iff.1 both).1⟩

/-- An operation on two numbers. If an operand is no number, its sign is that of the result. -/
def combine (operation : Float → Float → Float) (a b : Double) : Double :=
  withSign (operation a.value b.value) (if a.value.isNaN then a.minusOfNaN else b.minusOfNaN)

/-- The number is written with a minus sign. -/
def hasMinus (x : Double) : Bool :=
  if x.value.isNaN then x.minusOfNaN else x.value.toBits.toNat.testBit 63

/-- The number is finite and has no fraction. -/
def isWhole (x : Double) : Bool := x.value.isFinite && x.value.floor == x.value

/-- The number is finite, whole and even. Halving a whole number loses nothing. -/
def isEven (x : Double) : Bool := x.isWhole && (x.value / 2).floor == x.value / 2

/-- The elementary functions of the mathematical library. -/
def elementary : Elementary → Float → Float
  | .sin => Float.sin
  | .cos => Float.cos
  | .tan => Float.tan
  | .asin => Float.asin
  | .acos => Float.acos
  | .atan => Float.atan
  | .sinh => Float.sinh
  | .cosh => Float.cosh
  | .tanh => Float.tanh
  | .exp => Float.exp
  | .ln => Float.log
  | .log10 => Float.log10
  | .sqrt => Float.sqrt
  | .abs => Float.abs

instance : Scalar Double where
  add := combine (· + ·)
  sub := combine (· - ·)
  mul := combine (· * ·)
  div := combine (· / ·)
  neg x := withSign (-x.value) (!x.minusOfNaN)
  beq a b := a.value == b.value
  ofNat n := ofFloat n.toFloat
  pow := combine Float.pow
  apply function x := ofFloat (elementary function x.value)
  pi := ofFloat 3.141592653589793
  e := ofFloat 2.718281828459045
  isNaN x := x.value.isNaN
  isFinite x := x.value.isFinite
  hasMinus := hasMinus
  belowZero x := x.value < 0
  isWhole := isWhole
  isEven := isEven

/-- The text of the number: the shortest decimal that reads back, in positional notation. -/
def text (x : Double) : String :=
  if x.value.isNaN then "NaN"
  else
    let magnitude :=
      if x.value.isFinite then String.ofList (Binary.ofFloat x.value).shortest.positional
      else "inf"
    if x.hasMinus then "-" ++ magnitude else magnitude

/-- The double nearest to the decimal; none if that is no finite number. -/
def ofDecimal? (d : Decimal) : Option Double :=
  let value := Float.ofScientific d.digits (d.exponent < 0) d.exponent.natAbs
  if value.isFinite then some (ofFloat value) else none

/-- The finite number that a literal stands for. -/
def ofLiteral? (literal : String) : Option Double :=
  (Decimal.ofPositional? literal.toList).bind ofDecimal?

instance : Numeral Double where
  text := text
  ofLiteral? := ofLiteral?

end Double

end SymbolicCalculus
