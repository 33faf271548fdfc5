/-
Module: SymbolicCalculus.Simplify
Layer: Simplification
Purpose: Simplifying expressions. A pass goes through an expression from the operands to the outermost
  operation and applies at every node the first rule that fits; passes are repeated until no rule fits
  anywhere. The rules that were applied are the steps of the simplification.
Main exports: Expr.pass, Simplified, PassLimit, Expr.simplifyWithin, Expr.simplify, usualPassLimit,
  Expr.callDepth_simplify
-/
import SymbolicCalculus.Simplify.Rule

namespace SymbolicCalculus

namespace Expr

variable {α : Type} [Scalar α]

/-! ### One pass -/

/-- A node whose operands are done, after the rules that were applied to them. -/
def finish (e : Expr α) (applied : List Rule) : Expr α × List Rule :=
  match e.firstRule? with
  | some (rule, result) => (result, applied ++ [rule])
  | none => (e, applied)

mutual

/-- One pass over an expression: what becomes of it, and the rules that were applied, in order. No rule
    was applied exactly if none fits at any node. -/
def pass : Expr α → Expr α × List Rule
  | number value => finish (number value) []
  | symbol name => finish (symbol name) []
  | neg operand =>
      let inner := operand.pass
      finish (neg inner.1) inner.2
  | apply function operand =>
      let inner := operand.pass
      finish (apply function inner.1) inner.2
  | binary op left right =>
      let l := left.pass
      let r := right.pass
      finish (binary op l.1 r.1) (l.2 ++ r.2)
  | call name arguments =>
      let inner := passAll arguments
      finish (call name inner.1) inner.2

/-- One pass over each of a row of expressions. -/
def passAll : List (Expr α) → List (Expr α) × List Rule
  | [] => ([], [])
  | first :: others =>
      let head := first.pass
      let tail := passAll others
      (head.1 :: tail.1, head.2 ++ tail.2)

end

end Expr

/-! ### Repeated passes -/

/-- A simplified expression, and the rules that led to it. -/
structure Simplified (α : Type) where
  result : Expr α
  steps : List Rule
deriving Repr

/-- The expression has not come to rest within the passes that were allowed. -/
structure PassLimit (α : Type) where
  expr : Expr α
  passes : Nat
  last : Expr α
deriving Repr

/-- The number of passes that is allowed unless another one is asked for. -/
def usualPassLimit : Nat := 1000

namespace Expr

variable {α : Type} [Scalar α]

/-- Passes until one changes nothing: the result, and the steps after those already taken. If the
    allowed passes are used up before, the expression that they have led to. -/
def settle : Nat → Expr α → List Rule → Except (Expr α) (Simplified α)
  | 0, e, _ => .error e
  | passes + 1, e, steps =>
      let next := e.pass
      if next.2.isEmpty then .ok ⟨e, steps⟩ else settle passes next.1 (steps ++ next.2)

/-- The expression simplified in at most so many passes. -/
def simplifyWithin (limit : Nat) (e : Expr α) : Except (PassLimit α) (Simplified α) :=
  match e.settle limit [] with
  | .ok simplified => .ok simplified
  | .error last => .error ⟨e, limit, last⟩

/-- The simplified expression. -/
def simplify (e : Expr α) : Except (PassLimit α) (Expr α) :=
  match e.simplifyWithin usualPassLimit with
  | .ok simplified => .ok simplified.result
  | .error limit => .error limit

/-! ### Simplification and calls -/

theorem callDepth_finish (e : Expr α) (applied : List Rule) :
    (e.finish applied).1.callDepth ≤ e.callDepth := by
  unfold finish
  split
  · next rule result found =>
    obtain ⟨tried, _, fires⟩ := List.exists_of_findSome?_eq_some found
    obtain ⟨made, made_eq, pair_eq⟩ := Option.map_eq_some_iff.1 fires
    cases pair_eq
    exact Rule.callDepth_result? made_eq
  · exact Nat.le_refl _

mutual

theorem callDepth_pass : ∀ e : Expr α, e.pass.1.callDepth ≤ e.callDepth
  | number _ => callDepth_finish _ _
  | symbol _ => callDepth_finish _ _
  | neg operand => by
      have inner := callDepth_pass operand
      have outer := callDepth_finish (neg operand.pass.1) operand.pass.2
      simp only [pass, callDepth] at outer ⊢
      omega
  | apply function operand => by
      have inner := callDepth_pass operand
      have outer := callDepth_finish (apply function operand.pass.1) operand.pass.2
      simp only [pass, callDepth] at outer ⊢
      omega
  | binary op left right => by
      have l := callDepth_pass left
      have r := callDepth_pass right
      have outer := callDepth_finish (binary op left.pass.1 right.pass.1)
        (left.pass.2 ++ right.pass.2)
      simp only [pass, callDepth] at outer ⊢
      omega
  | call name arguments => by
      have inner := callDepth_passAll arguments
      have outer := callDepth_finish (call name (passAll arguments).1) (passAll arguments).2
      simp only [pass, callDepth] at outer ⊢
      omega

theorem callDepth_passAll : ∀ es : List (Expr α), callDepthOfAll (passAll es).1 ≤ callDepthOfAll es
  | [] => Nat.le_refl _
  | first :: others => by
      have head := callDepth_pass first
      have tail := callDepth_passAll others
      simp only [passAll, callDepthOfAll]
      omega

end

theorem callDepth_settle {passes : Nat} {e : Expr α} {steps : List Rule} {simplified : Simplified α}
    (done : e.settle passes steps = .ok simplified) :
    simplified.result.callDepth ≤ e.callDepth := by
  induction passes generalizing e steps with
  | zero => cases done
  | succ passes ih =>
    simp only [settle] at done
    split at done
    · cases done; exact Nat.le_refl _
    · exact Nat.le_trans (ih done) (callDepth_pass e)

/-- Simplification that has a result has come to rest there. -/
theorem settle_of_simplify {e result : Expr α} (done : e.simplify = .ok result) :
    ∃ simplified, e.settle usualPassLimit [] = .ok simplified ∧ simplified.result = result := by
  unfold simplify simplifyWithin at done
  split at done
  · next simplified found =>
    split at found
    · next settled rests =>
      cases found
      cases done
      exact ⟨simplified, rests, rfl⟩
    · cases found
  · cases done

/-- Simplification never puts calls deeper into each other. -/
theorem callDepth_simplify {e result : Expr α} (done : e.simplify = .ok result) :
    result.callDepth ≤ e.callDepth := by
  obtain ⟨simplified, settled, rfl⟩ := settle_of_simplify done
  exact callDepth_settle settled

end Expr

end SymbolicCalculus
