/-
Module: SymbolicCalculus.Proofs.Simplify.Rest
Layer: Proofs
Purpose: Where simplification comes to rest. A pass that applies no rule has found none that fits at any
  node, and passes are repeated until there is such a one. Every rule takes at least one off the weight of
  the expression, which is four for every node at most; so there is no limit on the passes above that
  which is ever reached, and none of them makes a difference.
Main exports: Expr.AtRest, Expr.atRest_of_pass, Expr.afterPasses, Expr.atRest_of_settle, Expr.settle_of_le,
  Expr.exists_afterPasses, Expr.simplification_comes_to_rest
-/
import SymbolicCalculus.Expr.Traversal
import SymbolicCalculus.Proofs.Double.Arithmetic
import SymbolicCalculus.Proofs.Simplify.Termination

namespace SymbolicCalculus.Expr

variable {α : Type} [Scalar α]

/-! ### Rest -/

/-- No rule fits at any node of the expression. -/
def AtRest (e : Expr α) : Prop := ∀ part ∈ e.postOrder, ∀ rule : Rule, rule.result? part = none

theorem mem_all (rule : Rule) : rule ∈ Rule.all := by
  cases rule <;> decide

/-- If no rule was found, none fits. -/
theorem result?_of_firstRule? {e : Expr α} (none_ : e.firstRule? = none) (rule : Rule) :
    rule.result? e = none := by
  have tried := List.findSome?_eq_none_iff.1 none_ rule (mem_all rule)
  exact Option.map_eq_none_iff.1 tried

/-- If no rule has been applied to a node and its operands, none fits at the node. -/
theorem finish_of_no_rules {e : Expr α} {applied : List Rule} (still : (e.finish applied).2 = []) :
    applied = [] ∧ (e.finish applied).1 = e ∧ ∀ rule : Rule, rule.result? e = none := by
  unfold finish at still ⊢
  split at still
  · exact absurd still (List.append_ne_nil_of_right_ne_nil _ (List.cons_ne_nil _ _))
  · next none_ => exact ⟨still, rfl, result?_of_firstRule? none_⟩

/-- An expression is at rest if its operands are and no rule fits at its own node. -/
theorem atRest_of_operands {e : Expr α} {parts : List (Expr α)} (nodes : e.postOrder = parts ++ [e])
    (rest : ∀ part ∈ parts, ∀ rule : Rule, rule.result? part = none)
    (fits : ∀ rule : Rule, rule.result? e = none) : e.AtRest := by
  intro part mem
  rw [nodes, List.mem_append, List.mem_singleton] at mem
  rcases mem with inside | rfl
  · exact rest part inside
  · exact fits

theorem atRest_of_leaf {e : Expr α} (leaf : e.postOrder = [e])
    (fits : ∀ rule : Rule, rule.result? e = none) : e.AtRest := by
  have nodes : e.postOrder = [] ++ [e] := leaf
  exact atRest_of_operands nodes (fun _ mem => nomatch mem) fits

/-- A number is at rest. -/
theorem atRest_number (value : α) : (number value).AtRest :=
  atRest_of_leaf rfl fun rule => by cases rule <;> rfl

mutual

/-- A pass that applies no rule leaves the expression as it is, and it is at rest. -/
theorem atRest_of_pass : ∀ {e : Expr α}, e.pass.2 = [] → e.pass.1 = e ∧ e.AtRest
  | number value, still => by
      obtain ⟨-, same, fits⟩ := finish_of_no_rules still
      exact ⟨same, atRest_of_leaf rfl fits⟩
  | symbol name, still => by
      obtain ⟨-, same, fits⟩ := finish_of_no_rules still
      exact ⟨same, atRest_of_leaf rfl fits⟩
  | neg operand, still => by
      obtain ⟨inner, same, fits⟩ := finish_of_no_rules still
      obtain ⟨sameOperand, rest⟩ := atRest_of_pass inner
      rw [sameOperand] at same fits
      exact ⟨by rwa [pass, sameOperand], atRest_of_operands rfl rest fits⟩
  | apply function operand, still => by
      obtain ⟨inner, same, fits⟩ := finish_of_no_rules still
      obtain ⟨sameOperand, rest⟩ := atRest_of_pass inner
      rw [sameOperand] at same fits
      exact ⟨by rwa [pass, sameOperand], atRest_of_operands rfl rest fits⟩
  | binary op left right, still => by
      obtain ⟨inner, same, fits⟩ := finish_of_no_rules still
      obtain ⟨first, second⟩ := List.append_eq_nil_iff.1 inner
      obtain ⟨sameLeft, restLeft⟩ := atRest_of_pass first
      obtain ⟨sameRight, restRight⟩ := atRest_of_pass second
      rw [sameLeft, sameRight] at same fits
      refine ⟨by rwa [pass, sameLeft, sameRight], atRest_of_operands rfl (fun part mem => ?_) fits⟩
      rcases List.mem_append.1 mem with inLeft | inRight
      · exact restLeft part inLeft
      · exact restRight part inRight
  | call name arguments, still => by
      obtain ⟨inner, same, fits⟩ := finish_of_no_rules still
      obtain ⟨sameArguments, rest⟩ := atRest_of_passAll inner
      rw [sameArguments] at same fits
      exact ⟨by rwa [pass, sameArguments], atRest_of_operands rfl rest fits⟩

theorem atRest_of_passAll : ∀ {es : List (Expr α)}, (passAll es).2 = [] →
    (passAll es).1 = es ∧ ∀ part ∈ postOrderOfAll es, ∀ rule : Rule, rule.result? part = none
  | [], _ => ⟨rfl, fun _ mem => nomatch mem⟩
  | first :: others, still => by
      obtain ⟨head, tail⟩ := List.append_eq_nil_iff.1 still
      obtain ⟨sameFirst, restFirst⟩ := atRest_of_pass head
      obtain ⟨sameOthers, restOthers⟩ := atRest_of_passAll tail
      refine ⟨by rw [passAll, sameFirst, sameOthers], fun part mem => ?_⟩
      rcases List.mem_append.1 mem with inFirst | inOthers
      · exact restFirst part inFirst
      · exact restOthers part inOthers

end

/-! ### Repeated passes -/

/-- The expression after so many passes, whether they change it or not, and the rules that were applied. -/
def afterPasses : Nat → Expr α → Expr α × List Rule
  | 0, e => (e, [])
  | passes + 1, e =>
      let next := e.pass
      let last := afterPasses passes next.1
      (last.1, next.2 ++ last.2)

/-- Passes stop at the first that applies no rule; what it has been applied to is the result. -/
theorem exists_afterPasses {limit : Nat} {e : Expr α} {steps : List Rule} {simplified : Simplified α}
    (settled : e.settle limit steps = .ok simplified) :
    ∃ passes, simplified = ⟨(afterPasses passes e).1, steps ++ (afterPasses passes e).2⟩ ∧
      (afterPasses passes e).1.AtRest := by
  induction limit generalizing e steps with
  | zero => cases settled
  | succ limit ih =>
    rw [settle] at settled
    split at settled
    · next still =>
      cases settled
      refine ⟨0, ?_, (atRest_of_pass (List.isEmpty_iff.1 still)).2⟩
      rw [afterPasses, List.append_nil]
    · obtain ⟨passes, rfl, rest⟩ := ih settled
      refine ⟨passes + 1, ?_, rest⟩
      rw [afterPasses, List.append_assoc]

theorem atRest_of_settle {limit : Nat} {e : Expr α} {steps : List Rule} {simplified : Simplified α}
    (settled : e.settle limit steps = .ok simplified) : simplified.result.AtRest := by
  obtain ⟨passes, rfl, rest⟩ := exists_afterPasses settled
  exact rest

/-- More passes than were needed make no difference. -/
theorem settle_of_le {limit limit' : Nat} {e : Expr α} {steps : List Rule} {simplified : Simplified α}
    (settled : e.settle limit steps = .ok simplified) (more : limit ≤ limit') :
    e.settle limit' steps = .ok simplified := by
  induction limit generalizing e steps limit' with
  | zero => cases settled
  | succ limit ih =>
    obtain ⟨limit', rfl⟩ : ∃ fewer, limit' = fewer + 1 := ⟨limit' - 1, by omega⟩
    rw [settle] at settled ⊢
    split
    · next still => rwa [if_pos still] at settled
    · next changed =>
      rw [if_neg changed] at settled
      exact ih settled (by omega)

/-- Repeated passes lead to an expression at rest with four rules for every node at most, and any limit
    that allows as many passes leads there. -/
theorem afterPasses_comes_to_rest [FlipsSign α] (e : Expr α) :
    ∃ passes, (afterPasses passes e).2.length ≤ 4 * e.nodeCount ∧ (afterPasses passes e).1.AtRest ∧
      ∀ limit, 4 * e.nodeCount ≤ limit →
        e.simplifyWithin limit = .ok ⟨(afterPasses passes e).1, (afterPasses passes e).2⟩ := by
  have light := weight_le e
  obtain ⟨simplified, settled, bound⟩ : ∃ simplified : Simplified α,
      e.settle (4 * e.nodeCount) [] = .ok simplified ∧
        simplified.result.weight + simplified.steps.length ≤ e.weight + 0 :=
    settle_of_weight (by omega)
  obtain ⟨passes, rfl, rest⟩ := exists_afterPasses settled
  simp only [List.nil_append] at settled bound
  refine ⟨passes, by omega, rest, fun limit enough => ?_⟩
  rw [simplifyWithin, settle_of_le settled enough]

/-- Over machine numbers simplification always comes to rest, whatever numbers and calls there are in the
    expression: repeated passes lead to an expression at which no rule fits, after four rules for every
    node at most, and with any limit of as many passes it is the result, with the same steps. -/
theorem simplification_comes_to_rest (e : Expr Double) :
    ∃ passes, (afterPasses passes e).2.length ≤ 4 * e.nodeCount ∧ (afterPasses passes e).1.AtRest ∧
      ∀ limit, 4 * e.nodeCount ≤ limit →
        e.simplifyWithin limit = .ok ⟨(afterPasses passes e).1, (afterPasses passes e).2⟩ :=
  afterPasses_comes_to_rest e

/-- `(x + 0) * 2` has five nodes. Twenty passes are enough, and a thousand lead to the same. -/
theorem simplification_comes_to_rest_product :
    let e : Expr Double := (symbol "x" + ofNat 0) * ofNat 2
    ∃ simplified, e.simplifyWithin 20 = .ok simplified ∧ e.simplifyWithin 1000 = .ok simplified := by
  intro e
  obtain ⟨passes, -, -, result⟩ := simplification_comes_to_rest e
  exact ⟨_, result 20 (by decide), result 1000 (by decide)⟩

end SymbolicCalculus.Expr
