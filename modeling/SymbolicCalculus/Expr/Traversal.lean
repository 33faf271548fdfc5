/-
Module: SymbolicCalculus.Expr.Traversal
Layer: Expressions
Purpose: Visiting the nodes of an expression from left to right, each after its operands. The order is
  given twice: by recursion on the tree, and by a walk that keeps the nodes it still has to visit on a
  stack and remembers only which node it has visited last. Nodes are told apart by their place in the
  tree, since equal subtrees may stand in several places.
Main exports: Expr.operands, Expr.postOrder, Occurrence, Walk, Walk.step, Walk.run, Expr.traverse
-/
import SymbolicCalculus.Expr

namespace SymbolicCalculus

variable {α : Type}

namespace Expr

/-- The operands of the outermost operation, from left to right. -/
def operands : Expr α → List (Expr α)
  | number _ | symbol _ => []
  | neg operand => [operand]
  | apply _ operand => [operand]
  | binary _ left right => [left, right]
  | call _ arguments => arguments

mutual

/-- All nodes, each after its operands. -/
def postOrder : Expr α → List (Expr α)
  | number value => [number value]
  | symbol name => [symbol name]
  | neg operand => operand.postOrder ++ [neg operand]
  | apply function operand => operand.postOrder ++ [apply function operand]
  | binary op left right => left.postOrder ++ right.postOrder ++ [binary op left right]
  | call name arguments => postOrderOfAll arguments ++ [call name arguments]

/-- All nodes of a row of expressions. -/
def postOrderOfAll : List (Expr α) → List (Expr α)
  | [] => []
  | first :: others => first.postOrder ++ postOrderOfAll others

end

end Expr

/-- A node and its place in the tree: the numbers of the operands to descend to from the root, the last
    of them first. -/
structure Occurrence (α : Type) where
  path : List Nat
  node : Expr α
deriving Repr

/-- The occurrences of the operands of a node. -/
def Occurrence.operands (at_ : Occurrence α) : List (Occurrence α) :=
  at_.node.operands.mapIdx fun index operand => ⟨index :: at_.path, operand⟩

/-- A walk in progress: the nodes still to be visited, the next one first, and the place visited last. -/
structure Walk (α : Type) where
  stack : List (Occurrence α)
  last : Option (List Nat)
deriving Repr

namespace Walk

/-- The walk before its first step. -/
def start (e : Expr α) : Walk α := ⟨[⟨[], e⟩], none⟩

/-- All operands of the node have been visited: it has none, or the walk comes from the last of them. -/
def isReady (walk : Walk α) (top : Occurrence α) : Bool :=
  match top.operands.getLast? with
  | none => true
  | some operand => walk.last == some operand.path

/-- One step: the top node is visited if it is ready, and its operands are put on top of it if not. The
    walk has ended when there is no step. -/
def step (walk : Walk α) : Option (Walk α × Option (Expr α)) :=
  match walk.stack with
  | [] => none
  | top :: below =>
      if walk.isReady top then some (⟨below, some top.path⟩, some top.node)
      else some (⟨top.operands ++ walk.stack, walk.last⟩, none)

/-- The nodes visited in so many steps. -/
def run : Nat → Walk α → List (Expr α)
  | 0, _ => []
  | steps + 1, walk =>
      match walk.step with
      | none => []
      | some (next, none) => run steps next
      | some (next, some visited) => visited :: run steps next

end Walk

/-- The nodes of an expression in the order of the walk. Two steps for every node are enough: one puts
    its operands on the stack, one visits it. -/
def Expr.traverse (e : Expr α) : List (Expr α) := (Walk.start e).run (2 * e.nodeCount)

end SymbolicCalculus
