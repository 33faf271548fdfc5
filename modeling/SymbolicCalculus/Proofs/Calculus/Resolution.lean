/-
Module: SymbolicCalculus.Proofs.Calculus.Resolution
Layer: Proofs
Purpose: Resolution leaves no call in an expression that has been read from a text: all its calls are
  operations of the calculus by a variable, so each of them is carried out, after those inside it. What
  has no call is left as it is by resolution.
Main exports: Expr.callDepth_resolve_of_madeOf, Expr.resolve_of_callDepth, Expr.callDepth_norm
-/
import SymbolicCalculus.Proofs.Calculus.Recursion
import SymbolicCalculus.Proofs.Expr.Ingredients
import SymbolicCalculus.Proofs.Expr.RoundTrip

namespace SymbolicCalculus.Expr

variable {α : Type} [Scalar α] {Number : α → Prop} {Name : String → Prop}

/-- Once an expression that is made of operations by variables is resolved, no call is left in it. By
    induction on what it is made of: the operand of a call has no call left when the call is carried out,
    and the calculus does not put any into it. -/
theorem callDepth_resolve_of_madeOf {e result : Expr α} (made : e.MadeOf Number Name)
    (done : e.resolve = .ok result) : result.callDepth = 0 := by
  induction made generalizing result with
  | number =>
    rw [resolve_number] at done
    cases done
    rfl
  | symbol =>
    rw [resolve_symbol] at done
    cases done
    rfl
  | neg _ inner =>
    rw [resolve_neg] at done
    obtain ⟨r, resolved, last⟩ := bind_eq_ok_iff.1 done
    cases last
    rw [callDepth]
    exact inner resolved
  | apply _ inner =>
    rw [resolve_apply] at done
    obtain ⟨r, resolved, last⟩ := bind_eq_ok_iff.1 done
    cases last
    rw [callDepth]
    exact inner resolved
  | binary _ _ left right =>
    rw [resolve_binary] at done
    obtain ⟨r, resolvedLeft, done⟩ := bind_eq_ok_iff.1 done
    obtain ⟨s, resolvedRight, last⟩ := bind_eq_ok_iff.1 done
    cases last
    rw [callDepth, left resolvedLeft, right resolvedRight]
    rfl
  | @call name bound f operation _ _ inner =>
    rw [resolve_call] at done
    obtain ⟨arguments, all, done⟩ := bind_eq_ok_iff.1 done
    rw [resolveAll_cons, resolveAll_cons, resolve_symbol, resolveAll_nil] at all
    obtain ⟨r, resolved, last⟩ := bind_eq_ok_iff.1 all
    cases last
    obtain ⟨carriedOut, asks⟩ : ∃ operation,
        operation? name [r, symbol bound] = some (operation, r, bound) :=
      operation?_of_isOperationName operation
    rw [asks] at done
    have depth : result.callDepth ≤ r.callDepth := by
      cases carriedOut with
      | integration => exact callDepth_antiderivative done
      | differentiation => exact callDepth_derivative done
    rw [inner resolved] at depth
    exact Nat.eq_zero_of_le_zero depth

/-- Resolution leaves an expression without calls as it is. -/
theorem resolve_of_callDepth : ∀ {e : Expr α}, e.callDepth = 0 → e.resolve = .ok e
  | number value, _ => resolve_number value
  | symbol name, _ => resolve_symbol name
  | neg operand, free => by
      have inner : operand.resolve = .ok operand := resolve_of_callDepth free
      rw [resolve_neg, inner]
      rfl
  | apply function operand, free => by
      have inner : operand.resolve = .ok operand := resolve_of_callDepth free
      rw [resolve_apply, inner]
      rfl
  | binary op left right, free => by
      rw [callDepth, Nat.max_eq_zero_iff] at free
      rw [resolve_binary, resolve_of_callDepth free.1, resolve_of_callDepth free.2]
      rfl
  | call name arguments, free => nomatch free

/-- Taking numbers apart puts no call into an expression. -/
theorem callDepth_norm : ∀ {e : Expr α}, e.callDepth = 0 → e.norm.callDepth = 0
  | number value, _ => by
      rw [norm]
      split <;> rfl
  | symbol name, _ => rfl
  | neg operand, free => callDepth_norm (e := operand) free
  | apply function operand, free => callDepth_norm (e := operand) free
  | binary op left right, free => by
      rw [callDepth, Nat.max_eq_zero_iff] at free
      rw [norm, callDepth, callDepth_norm free.1, callDepth_norm free.2]
      rfl
  | call name arguments, free => nomatch free

end SymbolicCalculus.Expr
