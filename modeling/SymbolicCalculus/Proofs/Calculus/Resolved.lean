/-
Module: SymbolicCalculus.Proofs.Calculus.Resolved
Layer: Proofs
Purpose: Resolution removes every call of an expression that was read from a text, or it says why it
  cannot. What is left has no call at any depth, so it is its own resolution and has a value wherever all
  its symbols have one. If there is no result, no rule of integration fits a part without calls, or a
  function has no derivative; or a simplification on the way has not come to rest.
Main exports: Expr.callFree_iff, Expr.exists_evaluate, CalculusCause.Founded, Expr.founded_derivative,
  Expr.founded_antiderivative, Expr.resolve_parsed
-/
import SymbolicCalculus.Proofs.Calculus.Failing
import SymbolicCalculus.Proofs.Calculus.Resolution
import SymbolicCalculus.Proofs.Calculus.WellFormed
import SymbolicCalculus.Proofs.Compile.Agreement
import SymbolicCalculus.Proofs.Expr.Evaluation

namespace SymbolicCalculus

/-! ### Failures -/

/-- A reason that there can be for an expression without calls: no rule of integration fits a part of it,
    which has no calls either; a function has no derivative; or a simplification has not come to rest. -/
inductive CalculusCause.Founded {α : Type} [Scalar α] : CalculusCause α → Prop where
  | nonIntegrable {f : Expr α} (calls : f.CallFree) : Founded (.nonIntegrable f)
  | unsupportedDerivative {function : Elementary} {u : Expr α}
      (unknown : function.derivativeAt? u = none) : Founded (.unsupportedDerivative function.name)
  | passLimit {u : Expr α} {limit : PassLimit α} (stuck : u.simplify = .error limit) :
      Founded (.passLimit limit)

namespace Expr

/-! ### Expressions without calls -/

section CallFree

variable {α : Type}

/-- There is no call at any depth. -/
theorem callFree_iff {e : Expr α} : e.CallFree ↔ ∀ part ∈ e.postOrder, part.isCall = false := by
  cases e with
  | number value => simp [CallFree, callDepth, postOrder, isCall]
  | symbol name => simp [CallFree, callDepth, postOrder, isCall]
  | neg operand =>
    rw [show (neg operand).CallFree ↔ operand.CallFree from Iff.rfl, callFree_iff]
    simp [postOrder, isCall, or_imp, forall_and]
  | apply function operand =>
    rw [show (apply function operand).CallFree ↔ operand.CallFree from Iff.rfl, callFree_iff]
    simp [postOrder, isCall, or_imp, forall_and]
  | binary op left right =>
    have operands : (binary op left right).CallFree ↔ left.CallFree ∧ right.CallFree :=
      Nat.max_eq_zero_iff
    rw [operands, callFree_iff, callFree_iff]
    simp [postOrder, isCall, or_imp, forall_and]
  | call name arguments => simp [CallFree, callDepth, postOrder, isCall]

/-- An expression without calls has a value in every context that binds its symbols. -/
theorem exists_evaluate [Scalar α] {context : Context α} {e : Expr α} (calls : e.CallFree)
    (bound : ∀ name ∈ e.symbols, ∃ x, context.get? name = some x) :
    ∃ value, e.evaluate context = .ok value :=
  exists_evaluate_of_bound (callFree_iff.1 calls) bound

end CallFree

/-! ### Why there is no result -/

section Causes

variable {α : Type} [Scalar α]

open CalculusCause (Founded)

theorem founded_derivative (var : String) {e : Expr α} (calls : e.CallFree) :
    FailsFor Founded (e.derivative var) := by
  intro cause failed
  cases unsupported_derivative var calls cause failed with
  | of_table unknown => exact .unsupportedDerivative unknown

/-- No step of a failure leads to an expression with calls. -/
theorem founded_antiderivative (var : String) {e : Expr α} (calls : e.CallFree) :
    FailsFor Founded (e.antiderivative var) :=
  failing_induction (motive := fun _ => Founded) (fun calls _ _ => .nonIntegrable calls)
    (fun _ _ founded => founded) (fun founded => founded) (fun unsettled => .passLimit unsettled) calls

/-- The calls of an expression that is made of operations by variables are carried out from the inside out,
    each on an operand without calls. -/
theorem founded_resolve {Number : α → Prop} {Name : String → Prop} {e : Expr α}
    (made : e.MadeOf Number Name) : FailsFor Founded e.resolve := by
  induction made with
  | number =>
    rw [resolve_number]
    exact failsFor_ok _
  | symbol =>
    rw [resolve_symbol]
    exact failsFor_ok _
  | neg _ inner =>
    rw [resolve_neg]
    exact inner.bind fun _ _ => failsFor_ok _
  | apply _ inner =>
    rw [resolve_apply]
    exact inner.bind fun _ _ => failsFor_ok _
  | binary _ _ left right =>
    rw [resolve_binary]
    exact left.bind fun _ _ => right.bind fun _ _ => failsFor_ok _
  | @call name bound f operation made _ inner =>
    rw [resolve_call, resolveAll_cons, resolveAll_cons, resolve_symbol, resolveAll_nil]
    have arguments : FailsFor Founded (do
        let r ← f.resolve
        return [r, symbol bound]) := inner.bind fun _ _ => failsFor_ok _
    refine FailsFor.bind arguments fun row all => ?_
    obtain ⟨r, resolved, same⟩ := bind_eq_ok_iff.1 all
    cases same
    have calls : r.CallFree := callDepth_resolve_of_madeOf made resolved
    obtain ⟨carriedOut, asks⟩ : ∃ operation,
        operation? name [r, symbol bound] = some (operation, r, bound) :=
      operation?_of_isOperationName operation
    rw [asks]
    cases carriedOut with
    | integration => exact founded_antiderivative bound calls
    | differentiation => exact founded_derivative bound calls

end Causes

/-! ### Texts -/

/-- Resolution removes every call. If the expression of a text is resolved, nothing in the result is a
    call at any depth, the result is its own resolution, and it has a value in every context that binds its
    free symbols. If it is not resolved, then because no rule of integration fits an expression without
    calls, or because a function has no derivative, or else the simplifier did not come to rest, which is
    no answer but the end of the program. And what has no call is its own resolution. -/
theorem resolve_parsed {α : Type} [Numeral α] {text : String} {e : Expr α}
    (read : parse text = .ok e) :
    (∀ r, e.resolve = .ok r →
      (∀ part ∈ r.postOrder, part.isCall = false) ∧ r.resolve = .ok r ∧
      ∀ context : Context α, (∀ name ∈ r.freeSymbols, ∃ x, context.get? name = some x) →
        ∃ value, r.evaluate context = .ok value) ∧
    (∀ cause, e.resolve = .error cause →
      (∃ f : Expr α, cause = .nonIntegrable f ∧ ∀ part ∈ f.postOrder, part.isCall = false) ∨
      (∃ (function : Elementary) (u : Expr α), function.derivativeAt? u = none ∧
        cause = .unsupportedDerivative function.name) ∨
      ∃ (u : Expr α) (limit : PassLimit α), u.simplify = .error limit ∧ cause = .passLimit limit) ∧
    ∀ free : Expr α, (∀ part ∈ free.postOrder, part.isCall = false) → free.resolve = .ok free := by
  have made : e.MadeOf (fun _ => True) _ :=
    madeOf_parse trivial trivial (fun _ _ _ => trivial) read
  refine ⟨fun r resolved => ?_, fun cause failed => ?_,
    fun free none_ => resolve_of_callDepth (callFree_iff.2 none_)⟩
  · have calls : r.CallFree := callDepth_resolve_of_madeOf made resolved
    refine ⟨callFree_iff.1 calls, resolve_of_callDepth calls, fun context bound => ?_⟩
    exact exists_evaluate calls fun name mem => bound name (mem_freeSymbols.2 mem)
  · cases founded_resolve made cause failed with
    | nonIntegrable calls => exact .inl ⟨_, rfl, callFree_iff.1 calls⟩
    | unsupportedDerivative unknown => exact .inr (.inl ⟨_, _, unknown, rfl⟩)
    | passLimit stuck => exact .inr (.inr ⟨_, _, stuck, rfl⟩)

/-- An integral of a derivative, both by the same variable. -/
theorem resolve_parsed_nested :
    let e : Expr Double :=
      call integralName [call derivativeName [symbol "y", symbol "x"], symbol "x"]
    let r : Expr Double := ofNat 0 * symbol "x"
    parse "int(diff(y, x), x)" = .ok e ∧ e.resolve = .ok r ∧
      (∀ part ∈ r.postOrder, part.isCall = false) ∧ r.resolve = .ok r ∧
      ∀ context : Context Double, (∀ name ∈ r.freeSymbols, ∃ x, context.get? name = some x) →
        ∃ value, r.evaluate context = .ok value := by
  intro e r
  have x : Token.IsIdentifier "x" := (Token.isIdentifier_iff "x").2 ⟨'x', [], rfl, rfl, by simp⟩
  have y : Token.IsIdentifier "y" := (Token.isIdentifier_iff "y").2 ⟨'y', [], rfl, rfl, by simp⟩
  have formed : e.WellFormed := .call rfl (.call rfl (.symbol ⟨y, rfl⟩) ⟨x, rfl⟩) ⟨x, rfl⟩
  have read : parse "int(diff(y, x), x)" = .ok e :=
    formed.printable.parse_text fun value mem => nomatch mem
  have inner : (call derivativeName [symbol "y", symbol "x"] : Expr Double).resolve =
      .ok (ofNat 0) := by
    simp only [resolve_call, resolveAll_cons, resolveAll_nil, resolve_symbol]
    exact derivative_symbol "y" "x"
  have resolved : e.resolve = .ok r := by
    rw [resolve_call, resolveAll_cons, resolveAll_cons, resolveAll_nil, resolve_symbol, inner]
    exact antiderivative_number _ "x"
  exact ⟨read, resolved, (resolve_parsed read).1 r resolved⟩

end Expr

end SymbolicCalculus
