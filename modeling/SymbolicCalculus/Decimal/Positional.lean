/-
Module: SymbolicCalculus.Decimal.Positional
Layer: Numbers
Purpose: Decimals in positional notation, without an exponent: how they are written and how they are
  read. Whole numbers have no point; a number below one has a zero before it.
Main exports: Decimal.positional, Decimal.ofPositional?
-/
import SymbolicCalculus.Decimal.Shortest

namespace SymbolicCalculus

namespace Decimal

/-- The digits of a whole number. -/
def digitText (n : Nat) : List Char := Nat.toDigits 10 n

/-- The decimal in positional notation. -/
def positional (d : Decimal) : List Char :=
  let digits := digitText d.digits
  let places := (-d.exponent).toNat
  if places = 0 then
    digits ++ List.replicate d.exponent.toNat '0'
  else
    let padded := List.replicate (places + 1 - digits.length) '0' ++ digits
    padded.take (padded.length - places) ++ '.' :: padded.drop (padded.length - places)

/-- The whole number that a row of digits stands for, on top of what stands before them. -/
def valueFrom (before : Nat) (digits : List Char) : Nat :=
  digits.foldl (fun value c => 10 * value + (c.toNat - '0'.toNat)) before

/-- The decimal that digits with at most one point among, before or behind them stand for. -/
def ofPositional? (text : List Char) : Option Decimal :=
  let whole := text.takeWhile Char.isDigit
  let fraction :=
    match text.dropWhile Char.isDigit with
    | [] => some []
    | '.' :: rest => if rest.all Char.isDigit then some rest else none
    | _ => none
  match fraction with
  | none => none
  | some fraction =>
      if whole.isEmpty && fraction.isEmpty then none
      else some ⟨valueFrom (valueFrom 0 whole) fraction, -(fraction.length : Int)⟩

end Decimal

end SymbolicCalculus
