/-
Module: SymbolicCalculus.Decimal.Shortest
Layer: Numbers
Purpose: The shortest decimal that is read back as a given machine number. On ever finer decimal grids
  the two grid points next to the number are tried; the first grid on which one of them is rounded to
  the number gives the fewest digits, and of two such points the nearer one is taken.
Main exports: Decimal, Binary.nearestOn?, Binary.shortest
-/
import SymbolicCalculus.Decimal.Binary

namespace SymbolicCalculus

/-- The number `digits * 10 ^ exponent`. -/
structure Decimal where
  digits : Nat
  exponent : Int
deriving DecidableEq, Repr, Inhabited

namespace Binary

/-- A fraction over the number's denominator as it counts on the grid of the multiples of
    `10 ^ exponent`: the numerator over `gridUnit`. -/
def onGrid (numerator : Nat) (exponent : Int) : Nat := numerator * Nat.pow 10 (-exponent).toNat

/-- The distance between two points of the grid, on the scale of `onGrid`. -/
def gridUnit (b : Binary) (exponent : Int) : Nat := b.denominator * Nat.pow 10 exponent.toNat

/-- The grid point at or below the number, counted from zero. -/
def floorOn (b : Binary) (exponent : Int) : Nat :=
  onGrid b.value exponent / b.gridUnit exponent

/-- The grid point is rounded to the number. -/
def covers (b : Binary) (exponent : Int) (point : Nat) : Bool :=
  let place := point * b.gridUnit exponent
  let low := onGrid b.low exponent
  let high := onGrid b.high exponent
  if b.includesEnds then low ≤ place && place ≤ high else low < place && place < high

/-- Of the grid points next to the number the one that is rounded to it. If both are, the nearer one
    wins; exactly half way it is the upper one. -/
def nearestOn? (b : Binary) (exponent : Int) : Option Nat :=
  let below := b.floorOn exponent
  let above := below + 1
  match b.covers exponent below, b.covers exponent above with
  | false, false => none
  | true, false => some below
  | false, true => some above
  | true, true =>
      let twice := 2 * onGrid b.value exponent
      if (below + above) * b.gridUnit exponent ≤ twice then some above else some below

/-- The search on the grid of `10 ^ exponent` and so many finer ones. On the last grid the number is
    itself a point. -/
def shortestFrom (b : Binary) : Nat → Int → Decimal
  | 0, exponent => ⟨b.floorOn exponent, exponent⟩
  | finer + 1, exponent =>
      match b.nearestOn? exponent with
      | some point => ⟨point, exponent⟩
      | none => shortestFrom b finer (exponent - 1)

/-- The number of decimal digits. -/
def digitCount (n : Nat) : Nat := (Nat.toDigits 10 n).length

/-- The exponent of a power of ten above everything that is rounded to the number. -/
def topExponent (b : Binary) : Int := (digitCount b.high : Int) - digitCount b.denominator + 1

/-- The shortest decimal that is rounded to the number, and of those the nearest to it. -/
def shortest (b : Binary) : Decimal :=
  if b.mantissa = 0 then ⟨0, 0⟩
  else b.shortestFrom (b.topExponent - min b.exponent 0).toNat b.topExponent

end Binary

end SymbolicCalculus
