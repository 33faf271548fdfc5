/-
Module: SymbolicCalculus.Text.Similar
Layer: Text
Purpose: Names that a slip of one key apart: equal, or made equal by putting in, leaving out or
  replacing one character. Messages about an unknown name suggest the known names of this kind.
Main exports: withinOneEdit, similar
-/

namespace SymbolicCalculus

/-- The two words differ by at most one insertion, deletion or replacement of a character. Characters
    that agree at the front can be taken off; at the first difference one edit must settle the rest. -/
def withinOneEdit : List Char → List Char → Bool
  | [], bs => bs.length ≤ 1
  | as, [] => as.length ≤ 1
  | a :: as, b :: bs =>
      if a = b then withinOneEdit as bs
      else as == bs || as == b :: bs || a :: as == bs

/-- The two names are alike enough that one may have been typed for the other. -/
def similar (first second : String) : Bool := withinOneEdit first.toList second.toList

end SymbolicCalculus
