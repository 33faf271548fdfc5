/-
Module: SymbolicCalculus.Text.Blank
Layer: Text
Purpose: White space by the Unicode property of that name, and the removal of it from the two ends of
  a text. A line that a person types may hold any of these characters around its parts; formulas
  themselves know only four of them (see the lexer).
Main exports: isBlank, trimLeft, trimRight, trim
-/
import SymbolicCalculus.Text.CodeRange

namespace SymbolicCalculus

/-- The code points with the Unicode property `White_Space`. -/
def blankRanges : CodeRanges :=
  [(0x09, 0x0D), (0x20, 0x20), (0x85, 0x85), (0xA0, 0xA0), (0x1680, 0x1680), (0x2000, 0x200A),
   (0x2028, 0x2029), (0x202F, 0x202F), (0x205F, 0x205F), (0x3000, 0x3000)]

example : blankRanges.areApart = true ∧ blankRanges.size = 25 := by decide

/-- The character is white space. -/
def isBlank (c : Char) : Bool := blankRanges.has c

example : isBlank '\u00a0' = true ∧ isBlank '\u200b' = false := by decide

/-- The characters without white space at their beginning. -/
def trimLeft (cs : List Char) : List Char := cs.dropWhile isBlank

/-- The characters without white space at their end. -/
def trimRight (cs : List Char) : List Char := (cs.reverse.dropWhile isBlank).reverse

/-- The characters without white space at either end. -/
def trim (cs : List Char) : List Char := trimRight (trimLeft cs)

end SymbolicCalculus
