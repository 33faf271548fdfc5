/-
Module: SymbolicCalculus.Operator
Layer: Numbers
Purpose: The five binary operators and how tightly they bind. Reader and printer share this one table,
  which is what makes a printed expression read back as itself.
Main exports: Precedence, Associativity, BinaryOp, BinaryOp.precedence, BinaryOp.associativity,
  BinaryOp.rightLevel, BinaryOp.symbol, BinaryOp.spaced
-/

namespace SymbolicCalculus

/-- How tightly an operator holds its operands, from the loosest to the tightest. -/
inductive Precedence where
  /-- Binds no tighter than anything. -/
  | any
  /-- Sums and differences. -/
  | term
  /-- Products and quotients. -/
  | factor
  /-- The minus sign in front of an operand. -/
  | neg
  /-- Powers. -/
  | exp
deriving DecidableEq, Repr, Inhabited

namespace Precedence

/-- The place of the precedence in the order. -/
def rank : Precedence → Nat
  | any => 0
  | term => 1
  | factor => 2
  | neg => 3
  | exp => 4

instance : LT Precedence := ⟨fun a b => a.rank < b.rank⟩
instance : LE Precedence := ⟨fun a b => a.rank ≤ b.rank⟩
instance (a b : Precedence) : Decidable (a < b) := inferInstanceAs (Decidable (a.rank < b.rank))
instance (a b : Precedence) : Decidable (a ≤ b) := inferInstanceAs (Decidable (a.rank ≤ b.rank))

/-- The name of the precedence. -/
def name : Precedence → String
  | any => "Any"
  | term => "Term"
  | factor => "Factor"
  | neg => "Neg"
  | exp => "Exp"

end Precedence

/-- To which side operators of one precedence group. -/
inductive Associativity where
  /-- `a - b - c` is `(a - b) - c`. -/
  | left
  /-- `a^b^c` is `a^(b^c)`. -/
  | right
deriving DecidableEq, Repr, Inhabited

/-- The name of the associativity. -/
def Associativity.name : Associativity → String
  | left => "Left"
  | right => "Right"

/-- A binary operator. -/
inductive BinaryOp where
  | add | sub | mul | div | pow
deriving DecidableEq, Repr, Inhabited

namespace BinaryOp

/-- How tightly the operator binds. -/
def precedence : BinaryOp → Precedence
  | add | sub => .term
  | mul | div => .factor
  | pow => .exp

/-- To which side the operator groups: powers to the right, all others to the left. -/
def associativity : BinaryOp → Associativity
  | pow => .right
  | _ => .left

/-- The loosest precedence that the right operand takes in. An operator that groups to the left leaves
    its own precedence to the operator before it; a power hands its own on to the right. -/
def rightLevel : BinaryOp → Precedence
  | add | sub => .factor
  | mul | div => .neg
  | pow => .exp

/-- The character of the operator. -/
def symbol : BinaryOp → String
  | add => "+"
  | sub => "-"
  | mul => "*"
  | div => "/"
  | pow => "^"

/-- The operator with the blanks that are printed around it. -/
def spaced : BinaryOp → String
  | add => " + "
  | sub => " - "
  | mul => " * "
  | div => " / "
  | pow => "^"

end BinaryOp

end SymbolicCalculus
