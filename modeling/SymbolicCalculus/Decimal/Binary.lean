/-
Module: SymbolicCalculus.Decimal.Binary
Layer: Numbers
Purpose: The exact value of a machine number as a whole number times a power of two, and the interval
  of reals that are rounded to it.
Main exports: Binary, Binary.ofFloat, Binary.value, Binary.low, Binary.high, Binary.includesEnds
-/

namespace SymbolicCalculus

/-- A number `mantissa * 2 ^ exponent` among its neighbours of the same format. Neighbours are
    `2 ^ exponent` apart, except that the one below a power of two may be only half as far away. -/
structure Binary where
  mantissa : Nat
  exponent : Int
  /-- The neighbour below is half as far away as the one above. -/
  narrowBelow : Bool
deriving DecidableEq, Repr, Inhabited

namespace Binary

/-- The magnitude of a finite machine number, read off its bits: 52 bits of fraction, and above them 11
    bits of exponent, of which the value zero marks the numbers without a leading one. -/
def ofFloat (x : Float) : Binary :=
  let bits := x.toBits.toNat
  let fraction : Nat := bits % Nat.pow 2 52
  let biased : Nat := bits / Nat.pow 2 52 % Nat.pow 2 11
  if biased = 0 then ⟨fraction, -1074, false⟩
  else ⟨Nat.pow 2 52 + fraction, (biased : Int) - 1075, fraction == 0 && biased != 1⟩

/-! ### The rounding interval

All its points are whole multiples of a quarter of `2 ^ exponent`, and are given as fractions over one
denominator. -/

/-- What the whole multiples of `2 ^ exponent / 4` are multiplied with to become numerators. -/
def unit (b : Binary) : Nat := Nat.pow 2 (b.exponent - 2).toNat

/-- The denominator of the value and of the ends of its interval. -/
def denominator (b : Binary) : Nat := Nat.pow 2 (2 - b.exponent).toNat

/-- The numerator of the value itself. -/
def value (b : Binary) : Nat := 4 * b.mantissa * b.unit

/-- The numerator of the lower end: half way to the neighbour below. -/
def low (b : Binary) : Nat := (4 * b.mantissa - if b.narrowBelow then 1 else 2) * b.unit

/-- The numerator of the upper end: half way to the neighbour above. -/
def high (b : Binary) : Nat := (4 * b.mantissa + 2) * b.unit

/-- The ends themselves are rounded to this number. Half way between two numbers the one with the even
    mantissa is taken. -/
def includesEnds (b : Binary) : Bool := b.mantissa % 2 == 0

end Binary

end SymbolicCalculus
