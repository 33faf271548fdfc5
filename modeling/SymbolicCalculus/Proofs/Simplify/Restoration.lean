/-
Module: SymbolicCalculus.Proofs.Simplify.Restoration
Layer: Proofs
Purpose: An expression at rest is restored from what is read when it has been printed. Printing takes
  negative numbers apart into a minus sign and a positive number, and the first pass folds each of them
  back. Since a pass goes from the leaves to the root, the operands of every node are what they were when
  the node itself is looked at; no rule has fitted there before, so none fits now.
Main exports: Expr.atRest_of_simplify, Expr.pass_of_atRest, Expr.simplify_of_same_pass, Expr.Refolds,
  Expr.pass_norm, Expr.simplify_norm
-/
import SymbolicCalculus.Proofs.Expr.RoundTrip
import SymbolicCalculus.Proofs.Simplify.Rest

namespace SymbolicCalculus.Expr

variable {α : Type} [Scalar α]

/-! ### Expressions at rest -/

/-- What simplification answers is at rest. -/
theorem atRest_of_simplify {e result : Expr α} (done : e.simplify = .ok result) : result.AtRest := by
  obtain ⟨simplified, settled, rfl⟩ := settle_of_simplify done
  exact atRest_of_settle settled

theorem finish_of_no_fit {e : Expr α} (fits : ∀ rule : Rule, rule.result? e = none)
    (applied : List Rule) : e.finish applied = (e, applied) := by
  have none_ : e.firstRule? = none :=
    List.findSome?_eq_none_iff.2 fun rule _ => Option.map_eq_none_iff.2 (fits rule)
  rw [finish, none_]

/-- If no rule fits at the nodes of an operation, none fits at those of its operands. -/
theorem atRest_left {op : BinaryOp} {left right : Expr α} (rest : (binary op left right).AtRest) :
    left.AtRest :=
  fun part mem => rest part (List.mem_append_left _ (List.mem_append_left _ mem))

theorem atRest_right {op : BinaryOp} {left right : Expr α} (rest : (binary op left right).AtRest) :
    right.AtRest :=
  fun part mem => rest part (List.mem_append_left _ (List.mem_append_right _ mem))

/-- No rule fits at the outermost node of an expression at rest. -/
theorem no_fit_of_atRest {e : Expr α} (rest : e.AtRest) (rule : Rule) : rule.result? e = none := by
  refine rest e ?_ rule
  cases e <;> simp [postOrder]

mutual

/-- A pass leaves an expression at rest as it is and applies no rule. -/
theorem pass_of_atRest : ∀ {e : Expr α}, e.AtRest → e.pass = (e, [])
  | number value, rest => finish_of_no_fit (no_fit_of_atRest rest) []
  | symbol name, rest => finish_of_no_fit (no_fit_of_atRest rest) []
  | neg operand, rest => by
      have inner : operand.AtRest := fun part mem => rest part (List.mem_append_left _ mem)
      rw [pass, pass_of_atRest inner]
      exact finish_of_no_fit (no_fit_of_atRest rest) []
  | apply function operand, rest => by
      have inner : operand.AtRest := fun part mem => rest part (List.mem_append_left _ mem)
      rw [pass, pass_of_atRest inner]
      exact finish_of_no_fit (no_fit_of_atRest rest) []
  | binary op left right, rest => by
      rw [pass, pass_of_atRest (atRest_left rest), pass_of_atRest (atRest_right rest)]
      exact finish_of_no_fit (no_fit_of_atRest rest) []
  | call name arguments, rest => by
      have inner : ∀ part ∈ postOrderOfAll arguments, ∀ rule : Rule, rule.result? part = none :=
        fun part mem => rest part (List.mem_append_left _ mem)
      rw [pass, passAll_of_atRest inner]
      exact finish_of_no_fit (no_fit_of_atRest rest) []

theorem passAll_of_atRest : ∀ {es : List (Expr α)},
    (∀ part ∈ postOrderOfAll es, ∀ rule : Rule, rule.result? part = none) → passAll es = (es, [])
  | [], _ => rfl
  | first :: others, rest => by
      have head : first.AtRest := fun part mem => rest part (List.mem_append_left _ mem)
      have tail : passAll others = (others, []) :=
        passAll_of_atRest fun part mem => rest part (List.mem_append_right _ mem)
      rw [passAll, pass_of_atRest head, tail]
      rfl

end

/-- If one pass leads to an expression at rest, it is what simplification answers. -/
theorem simplify_of_pass {e result : Expr α} (leads : e.pass.1 = result) (rest : result.AtRest) :
    e.simplify = .ok result := by
  have settled : ∃ steps, e.settle usualPassLimit [] = .ok ⟨result, steps⟩ := by
    rw [usualPassLimit, settle]
    split
    · next still =>
      have same := (atRest_of_pass (List.isEmpty_iff.1 still)).1
      exact ⟨[], by rw [← same, leads]⟩
    · refine ⟨[] ++ e.pass.2, ?_⟩
      rw [leads, settle, pass_of_atRest rest]
      rfl
  obtain ⟨steps, settled⟩ := settled
  rw [simplify, simplifyWithin, settled]

/-- If one pass leads to an expression at rest, any more passes leave it there. -/
theorem afterPasses_of_pass {e result : Expr α} (leads : e.pass.1 = result) (rest : result.AtRest) :
    ∀ passes, (afterPasses (passes + 1) e).1 = result
  | 0 => leads
  | passes + 1 => by
      have still : result.pass.1 = result := by rw [pass_of_atRest rest]
      change (afterPasses (passes + 1) e.pass.1).1 = result
      rw [leads]
      exact afterPasses_of_pass still rest passes

/-! ### Passes that meet -/

/-- What a rule makes of a node does not depend on the rules that were applied to its operands. -/
theorem finish_fst (e : Expr α) (applied : List Rule) : (e.finish applied).1 = (e.finish []).1 := by
  unfold finish
  split <;> rfl

/-- Operations meet where their operands do. -/
theorem pass_neg_of_same {a b : Expr α} (same : a.pass.1 = b.pass.1) : (neg a).pass.1 = (neg b).pass.1 := by
  rw [pass, pass, same, finish_fst, finish_fst _ b.pass.2]

theorem pass_binary_of_same {a b c d : Expr α} (op : BinaryOp) (left : a.pass.1 = c.pass.1)
    (right : b.pass.1 = d.pass.1) : (binary op a b).pass.1 = (binary op c d).pass.1 := by
  rw [pass, pass, left, right, finish_fst, finish_fst _ (c.pass.2 ++ d.pass.2)]

/-- What an expression becomes does not depend on the steps that have been taken before. -/
theorem settle_map_result (passes : Nat) (e : Expr α) (steps : List Rule) :
    (e.settle passes steps).map Simplified.result = (e.settle passes []).map Simplified.result := by
  induction passes generalizing e steps with
  | zero => rfl
  | succ passes ih =>
    rw [settle, settle]
    split
    · rfl
    · exact (ih e.pass.1 (steps ++ e.pass.2)).trans (ih e.pass.1 ([] ++ e.pass.2)).symm

/-- A pass that leads to something else is followed by another one. -/
theorem settle_of_changed {e next : Expr α} (leads : e.pass.1 = next)
    (other : next.nodeCount ≠ e.nodeCount) (passes : Nat) (steps : List Rule) :
    ∃ steps', e.settle (passes + 1) steps = next.settle passes steps' := by
  rw [settle]
  split
  · next still =>
    have same := (atRest_of_pass (List.isEmpty_iff.1 still)).1
    exact absurd (congrArg nodeCount (leads.symm.trans same)) other
  · exact ⟨_, by rw [leads]⟩

/-- The first pass can be taken in advance, whether it changes the expression or not. -/
theorem settle_of_first_pass (passes : Nat) (e : Expr α) :
    (e.settle (passes + 2) []).map Simplified.result =
      (e.pass.1.settle (passes + 1) []).map Simplified.result := by
  rw [settle]
  split
  · next still =>
    have same := (atRest_of_pass (List.isEmpty_iff.1 still)).1
    rw [same, settle, if_pos still]
  · exact settle_map_result (passes + 1) e.pass.1 _

/-- Where two expressions become the same in one pass, they are simplified to the same. -/
theorem simplifyWithin_of_same_pass {a b : Expr α} {limit : Nat} {simplified : Simplified α}
    (same : a.pass.1 = b.pass.1) (allowed : 2 ≤ limit)
    (done : b.simplifyWithin limit = .ok simplified) :
    ∃ simplified', a.simplifyWithin limit = .ok simplified' ∧ simplified'.result = simplified.result := by
  obtain ⟨passes, rfl⟩ : ∃ passes, limit = passes + 2 := ⟨limit - 2, by omega⟩
  have meet : (a.settle (passes + 2) []).map Simplified.result =
      (b.settle (passes + 2) []).map Simplified.result := by
    rw [settle_of_first_pass, settle_of_first_pass, same]
  have settled : b.settle (passes + 2) [] = .ok simplified := by
    unfold simplifyWithin at done
    split at done
    · next found => rw [found, Except.ok.inj done]
    · cases done
  rw [settled] at meet
  cases other : a.settle (passes + 2) [] with
  | error last =>
    rw [other] at meet
    cases meet
  | ok simplified' =>
    rw [other] at meet
    exact ⟨simplified', by rw [simplifyWithin, other], Except.ok.inj meet⟩

theorem simplify_of_same_pass {a b result : Expr α} (same : a.pass.1 = b.pass.1)
    (done : b.simplify = .ok result) : a.simplify = .ok result := by
  unfold simplify at done
  split at done
  · next simplified within =>
    obtain ⟨simplified', within', equal⟩ := simplifyWithin_of_same_pass same (by decide) within
    rw [← done, ← equal, simplify, within']
  · cases done

/-! ### Numbers taken apart and folded -/

/-- A number with a minus sign is what folding makes of the sign and the rest. -/
def Refolds (value : α) : Prop :=
  Scalar.hasMinus value = true → Rule.finite? (- -value) = some (number value)

/-- What can be folded is folded. -/
theorem firstRule?_of_fold? {e result : Expr α} (folds : Rule.fold? e = some result) :
    e.firstRule? = some (.foldConstants, result) := by
  have fires : Rule.foldConstants.result? e = some result := folds
  rw [firstRule?, firstOf?, Rule.all, Rule.folding, List.append_assoc]
  simp only [List.cons_append, List.findSome?_cons, fires, Option.map_some]

/-- No rule fits at a number. -/
theorem firstRule?_number (value : α) : (number value).firstRule? = none := rfl

theorem pass_norm_number {value : α} (refolds : Refolds value) :
    (number value).norm.pass.1 = number value := by
  rw [norm]
  split
  · next minus =>
    have folds : (neg (number (-value))).firstRule? = some (.foldConstants, number value) :=
      firstRule?_of_fold? (refolds minus)
    have inner : (number (-value)).pass = (number (-value), []) := by
      rw [pass, finish, firstRule?_number]
    rw [pass, inner, finish, folds]
  · rw [pass, finish, firstRule?_number]

mutual

/-- One pass restores an expression at rest from what is read when it has been printed. -/
theorem pass_norm : ∀ {e : Expr α}, e.AtRest → (∀ value ∈ e.numbers, Refolds value) →
    e.norm.pass.1 = e
  | number value, _, refolds => pass_norm_number (refolds value (List.mem_singleton_self value))
  | symbol name, rest, _ => by
      rw [norm, pass, finish_of_no_fit (no_fit_of_atRest rest)]
  | neg operand, rest, refolds => by
      have inner : operand.AtRest := fun part mem => rest part (List.mem_append_left _ mem)
      rw [norm, pass, pass_norm inner refolds, finish_of_no_fit (no_fit_of_atRest rest)]
  | apply function operand, rest, refolds => by
      have inner : operand.AtRest := fun part mem => rest part (List.mem_append_left _ mem)
      rw [norm, pass, pass_norm inner refolds, finish_of_no_fit (no_fit_of_atRest rest)]
  | binary op left right, rest, refolds => by
      have first : ∀ value ∈ left.numbers, Refolds value :=
        fun value mem => refolds value (List.mem_append_left _ mem)
      have second : ∀ value ∈ right.numbers, Refolds value :=
        fun value mem => refolds value (List.mem_append_right _ mem)
      rw [norm, pass, pass_norm (atRest_left rest) first, pass_norm (atRest_right rest) second,
        finish_of_no_fit (no_fit_of_atRest rest)]
  | call name arguments, rest, refolds => by
      have inner : ∀ part ∈ postOrderOfAll arguments, ∀ rule : Rule, rule.result? part = none :=
        fun part mem => rest part (List.mem_append_left _ mem)
      rw [norm, pass, passAll_normAll inner refolds, finish_of_no_fit (no_fit_of_atRest rest)]

theorem passAll_normAll : ∀ {es : List (Expr α)},
    (∀ part ∈ postOrderOfAll es, ∀ rule : Rule, rule.result? part = none) →
      (∀ value ∈ numbersOfAll es, Refolds value) → (passAll (normAll es)).1 = es
  | [], _, _ => rfl
  | first :: others, rest, refolds => by
      have head : first.norm.pass.1 = first :=
        pass_norm (fun part mem => rest part (List.mem_append_left _ mem))
          fun value mem => refolds value (List.mem_append_left _ mem)
      have tail : (passAll (normAll others)).1 = others :=
        passAll_normAll (fun part mem => rest part (List.mem_append_right _ mem))
          fun value mem => refolds value (List.mem_append_right _ mem)
      rw [normAll, passAll, head, tail]

end

/-- Simplification restores an expression at rest from what is read when it has been printed. -/
theorem simplify_norm {e : Expr α} (rest : e.AtRest) (refolds : ∀ value ∈ e.numbers, Refolds value) :
    e.norm.simplify = .ok e :=
  simplify_of_pass (pass_norm rest refolds) rest

end SymbolicCalculus.Expr
