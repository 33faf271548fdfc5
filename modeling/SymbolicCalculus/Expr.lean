/-
Module: SymbolicCalculus.Expr
Layer: Expressions
Purpose: Mathematical expressions. An expression is what a formula means: it has no parentheses and no
  places in a text, constants are numbers, and functions are known. Calls are left for the two operations
  of the calculus, which are carried out later.
Main exports: Expr, Expr.same, Expr.asNumber?, Expr.isNumber, Expr.asSymbol?, Expr.dependsOn,
  Expr.freeSymbols, Expr.isConstant, Expr.nodeCount, Expr.callDepth, Expr.substitute, integralName,
  derivativeName
-/
import SymbolicCalculus.Scalar

namespace SymbolicCalculus

/-- An expression over numbers of type `α`. -/
inductive Expr (α : Type) where
  | number (value : α)
  | symbol (name : String)
  | neg (operand : Expr α)
  | apply (function : Elementary) (operand : Expr α)
  | binary (op : BinaryOp) (left right : Expr α)
  /-- An operation that is still to be carried out. -/
  | call (name : String) (arguments : List (Expr α))
deriving Repr

/-- The name of integration: `int(f, x)` is an antiderivative of `f` by `x`. -/
def integralName : String := "int"

/-- The name of differentiation: `diff(f, x)` is the derivative of `f` by `x`. -/
def derivativeName : String := "diff"

namespace Expr

variable {α : Type}

instance [Inhabited α] : Inhabited (Expr α) := ⟨number default⟩

/-! ### Arithmetic on expressions

Operators between expressions build the expression of that form; nothing is computed. -/

instance : Add (Expr α) := ⟨binary .add⟩
instance : Sub (Expr α) := ⟨binary .sub⟩
instance : Mul (Expr α) := ⟨binary .mul⟩
instance : Div (Expr α) := ⟨binary .div⟩
instance : Pow (Expr α) (Expr α) := ⟨binary .pow⟩
instance : Neg (Expr α) := ⟨neg⟩

theorem add_def (left right : Expr α) : left + right = binary .add left right := rfl
theorem sub_def (left right : Expr α) : left - right = binary .sub left right := rfl
theorem mul_def (left right : Expr α) : left * right = binary .mul left right := rfl
theorem div_def (left right : Expr α) : left / right = binary .div left right := rfl
theorem pow_def (left right : Expr α) : left ^ right = binary .pow left right := rfl
theorem neg_def (operand : Expr α) : -operand = neg operand := rfl

/-- The whole number as an expression. -/
def ofNat [Scalar α] (n : Nat) : Expr α := number (Scalar.ofNat n)

/-! ### Equality -/

section Equality

variable [Scalar α]

mutual

/-- Two expressions are the same tree with the same numbers in it. -/
def same : Expr α → Expr α → Bool
  | number a, number b => Scalar.same a b
  | symbol a, symbol b => a == b
  | neg a, neg b => a.same b
  | apply f a, apply g b => f == g && a.same b
  | binary f a b, binary g c d => f == g && a.same c && b.same d
  | call f as, call g bs => f == g && sameAll as bs
  | _, _ => false

/-- Two rows of expressions are the same one by one. -/
def sameAll : List (Expr α) → List (Expr α) → Bool
  | [], [] => true
  | a :: as, b :: bs => a.same b && sameAll as bs
  | _, _ => false

end

/-- The value of a number or of a negated number. -/
def asNumber? : Expr α → Option α
  | number value => some value
  | neg (number value) => some (-value)
  | _ => none

/-- The expression is a number equal to the given one. -/
def isNumber (value : α) : Expr α → Bool
  | number a => a == value
  | _ => false

/-- The expression is the given whole number. -/
def isNat (n : Nat) (e : Expr α) : Bool := e.isNumber (Scalar.ofNat n)

end Equality

/-- The name of a symbol. -/
def asSymbol? : Expr α → Option String
  | symbol name => some name
  | _ => none

/-- The expression is a call that is still to be carried out. -/
def isCall : Expr α → Bool
  | call _ _ => true
  | _ => false

/-! ### Symbols -/

mutual

/-- The names of all symbols, from left to right and as often as they occur. -/
def symbols : Expr α → List String
  | number _ => []
  | symbol name => [name]
  | neg operand => operand.symbols
  | apply _ operand => operand.symbols
  | binary _ left right => left.symbols ++ right.symbols
  | call _ arguments => symbolsOfAll arguments

/-- The names of all symbols in a row of expressions. -/
def symbolsOfAll : List (Expr α) → List String
  | [] => []
  | first :: others => first.symbols ++ symbolsOfAll others

end

/-- The variable occurs somewhere in the expression. -/
def dependsOn (e : Expr α) (var : String) : Bool := e.symbols.contains var

/-- A name put at its place into an ascending row of names, unless it is there already. -/
def insertName (name : String) : List String → List String
  | [] => [name]
  | first :: others =>
      if name < first then name :: first :: others
      else if name = first then first :: others
      else first :: insertName name others

/-- The names of the symbols in ascending order, each of them once. -/
def freeSymbols (e : Expr α) : List String := e.symbols.foldr insertName []

/-- No symbol occurs in the expression. -/
def isConstant (e : Expr α) : Bool := e.symbols.isEmpty

/-! ### Measures -/

mutual

/-- The number of nodes of the tree. -/
def nodeCount : Expr α → Nat
  | number _ | symbol _ => 1
  | neg operand => operand.nodeCount + 1
  | apply _ operand => operand.nodeCount + 1
  | binary _ left right => left.nodeCount + right.nodeCount + 1
  | call _ arguments => nodeCountOfAll arguments + 1

/-- The number of nodes of a row of trees. -/
def nodeCountOfAll : List (Expr α) → Nat
  | [] => 0
  | first :: others => first.nodeCount + nodeCountOfAll others

end

mutual

/-- How many calls stand inside each other at most. -/
def callDepth : Expr α → Nat
  | number _ | symbol _ => 0
  | neg operand => operand.callDepth
  | apply _ operand => operand.callDepth
  | binary _ left right => max left.callDepth right.callDepth
  | call _ arguments => callDepthOfAll arguments + 1

/-- How many calls stand inside each other at most in a row of expressions. -/
def callDepthOfAll : List (Expr α) → Nat
  | [] => 0
  | first :: others => max first.callDepth (callDepthOfAll others)

end

theorem nodeCount_pos (e : Expr α) : 0 < e.nodeCount := by
  cases e <;> simp [nodeCount]

/-! ### Substitution -/

mutual

/-- The expression with another one in the place of every occurrence of a variable. -/
def substitute (e : Expr α) (var : String) (replacement : Expr α) : Expr α :=
  match e with
  | number value => number value
  | symbol name => if name = var then replacement else symbol name
  | neg operand => neg (operand.substitute var replacement)
  | apply function operand => apply function (operand.substitute var replacement)
  | binary op left right =>
      binary op (left.substitute var replacement) (right.substitute var replacement)
  | call name arguments => call name (substituteAll arguments var replacement)

/-- A row of expressions with another expression in the place of a variable. -/
def substituteAll (es : List (Expr α)) (var : String) (replacement : Expr α) : List (Expr α) :=
  match es with
  | [] => []
  | first :: others =>
      first.substitute var replacement :: substituteAll others var replacement

end

end Expr

end SymbolicCalculus
