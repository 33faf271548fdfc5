/-
Module: SymbolicCalculus.Proofs.Compile.Agreement
Layer: Proofs
Purpose: A function made from a text gives the values that its expression has. The function takes every
  symbol for its argument and knows of no context; the evaluator looks every symbol up and may fail. They
  agree because a text is made into a function only if its expression has no symbol but the variable, and
  because an expression with a call left in it is made into no function. What the operations on numbers
  answer does not matter: both carry out the same ones in the same order.
Main exports: Expr.evaluate_of_function, Compiled.Origin, Compiled.contextAt,
  Compiled.origin_of_ofText, Compiled.evaluate_eq_function
-/
import SymbolicCalculus.Calculus.Equations
import SymbolicCalculus.Compile
import SymbolicCalculus.Double
import SymbolicCalculus.Proofs.Expr.Occurrences
import SymbolicCalculus.Proofs.Expr.RoundTrip

namespace SymbolicCalculus

variable {α : Type}

namespace Expr

variable [Scalar α]

/-! ### Functions and values -/

/-- The function that an expression describes gives its value in every context that binds all symbols in
    it to the argument. By recursion on the expression: function and evaluator go into the same operands
    in the same order. -/
theorem evaluate_of_function {context : Context α} {x : α} : ∀ {e : Expr α} {f : α → α},
    e.function context.unit = .ok f → (∀ name ∈ e.symbols, context.get? name = some x) →
      e.evaluate context = .ok (f x)
  | number value, _, made, _ => by
      cases made
      rfl
  | symbol name, _, made, bound => by
      cases made
      rw [evaluate, bound name (List.mem_singleton_self name)]
  | neg operand, _, made, bound => by
      rw [function] at made
      split at made
      · next g makes =>
        cases made
        rw [evaluate, evaluate_of_function (e := operand) makes bound]
      · cases made
  | apply elementary operand, _, made, bound => by
      rw [function] at made
      split at made
      · next g makes =>
        cases made
        rw [evaluate, evaluate_of_function (e := operand) makes bound]
      · cases made
  | binary op left right, _, made, bound => by
      rw [function] at made
      split at made
      · cases made
      · next g makes =>
        split at made
        · cases made
        · next h makes' =>
          cases made
          rw [evaluate, evaluate_of_function makes fun name mem => bound name (List.mem_append_left _ mem),
            evaluate_of_function makes' fun name mem => bound name (List.mem_append_right _ mem)]
  | call name arguments, _, made, _ => nomatch made

end Expr

namespace Compiled

/-- The context in which the variable of the function is the only one with a value. -/
def contextAt (compiled : Compiled α) (unit : AngleUnit) (x : α) : Context α :=
  { Context.empty.set compiled.var x with unit := unit }

theorem get?_contextAt (compiled : Compiled α) (unit : AngleUnit) (x : α) :
    (compiled.contextAt unit x).get? compiled.var = some x :=
  (Context.get?_set _ _ _ _).trans (if_pos rfl)

variable [Numeral α]

/-- Where the expression of a function comes from: it has been read from the text, its calls have been
    carried out, and it has been simplified if that was asked for. -/
def Origin (text : String) (options : CompileOptions) (e : Expr α) : Prop :=
  ∃ read resolved, Expr.parse text = .ok read ∧ read.resolve = .ok resolved ∧
    if options.simplify then resolved.simplify = .ok e else resolved = e

theorem origin_of_prepare {text : String} {options : CompileOptions} {e : Expr α}
    (prepared : prepare text options = .ok e) : Origin text options e := by
  unfold prepare at prepared
  split at prepared
  · cases prepared
  · next read parsed =>
    split at prepared
    · cases prepared
    · next resolved resolves =>
      refine ⟨read, resolved, parsed, resolves, ?_⟩
      split at prepared
      · next simplify =>
        rw [if_pos simplify]
        split at prepared
        · cases prepared
        · next simplified simplifies =>
          cases prepared
          exact simplifies
      · next asIs =>
        rw [if_neg asIs]
        cases prepared
        rfl

/-- A text that is made into a function has an expression in which only the variable occurs. -/
theorem origin_of_ofText {text var : String} {options : CompileOptions} {compiled : Compiled α}
    (made : ofText text var options = .ok compiled) :
    compiled.var = var ∧ Origin text options compiled.expr ∧
      (∀ name ∈ compiled.expr.symbols, name = var) ∧
      compiled.expr.function options.unit = .ok compiled.function := by
  unfold ofText at made
  split at made
  · cases made
  · next e prepared =>
    split at made
    · cases made
    · next noOther =>
      split at made
      · cases made
      · next function makes =>
        cases made
        refine ⟨rfl, origin_of_prepare prepared, fun name mem => ?_, makes⟩
        have only := List.find?_eq_none.1 noOther name (Expr.mem_freeSymbols.2 mem)
        simpa using only

/-- A function made from a text agrees with the evaluator: its expression has a value in the context that
    binds the variable alone, to any number, and this value is what the function gives there. Without
    simplification, the expression is what the text says with its calls carried out. Nothing is asked of
    the numbers and of the operations on them. -/
theorem evaluate_eq_function {text var : String} {options : CompileOptions} {compiled : Compiled α}
    (made : ofText text var options = .ok compiled) :
    (∀ x : α, compiled.expr.evaluate (compiled.contextAt options.unit x) =
        .ok (compiled.function x)) ∧
      compiled.var = var ∧
      (options.simplify = false →
        ∃ read, Expr.parse text = .ok read ∧ read.resolve = .ok compiled.expr) := by
  obtain ⟨sameVar, origin, only, makes⟩ := origin_of_ofText made
  refine ⟨fun x => Expr.evaluate_of_function makes fun name mem => ?_, sameVar, fun asIs => ?_⟩
  · rw [only name mem, ← sameVar]
    exact get?_contextAt compiled options.unit x
  · obtain ⟨read, resolved, parsed, resolves, last⟩ := origin
    rw [if_neg (by simp [asIs])] at last
    exact ⟨read, parsed, last ▸ resolves⟩

/-- A derivative that is carried out and simplified before the function is made, with angles in degrees. -/
theorem evaluate_eq_function_derivative :
    let options : CompileOptions := { unit := .degrees }
    ∃ compiled : Compiled Double, ofText "diff(sin(x), x)" "x" options = .ok compiled ∧
      compiled.expr = .apply .cos (.symbol "x") ∧
      ∀ x, compiled.expr.evaluate (compiled.contextAt .degrees x) = .ok (compiled.function x) := by
  intro options
  let sine : Expr Double := .apply .sin (.symbol "x")
  let e : Expr Double := .call derivativeName [sine, .symbol "x"]
  have x : Token.IsIdentifier "x" := (Token.isIdentifier_iff "x").2 ⟨'x', [], rfl, rfl, by simp⟩
  have printable : e.Printable := .call rfl (.apply (.symbol x rfl)) (.symbol x rfl)
  have read : Expr.parse "diff(sin(x), x)" = .ok e := printable.parse_text fun value mem => nomatch mem
  have differentiated : sine.derivative "x" = .ok (.apply .cos (.symbol "x") * .ofNat 1) := by
    simp only [sine, Expr.derivative_apply, Expr.derivative_symbol]
    rfl
  have resolved : e.resolve = .ok (.apply .cos (.symbol "x") * .ofNat 1) := by
    simp only [e, sine, Expr.resolve_call, Expr.resolveAll_cons, Expr.resolveAll_nil,
      Expr.resolve_apply, Expr.resolve_symbol]
    exact differentiated
  have prepared : prepare "diff(sin(x), x)" options = .ok (.apply .cos (.symbol "x") : Expr Double) := by
    rw [prepare, read]
    simp only [resolved]
    rfl
  let compiled : Compiled Double :=
    ⟨.apply .cos (.symbol "x"), "x", fun x => Elementary.cos.applyIn .degrees x⟩
  have made : ofText "diff(sin(x), x)" "x" options = .ok compiled := by
    rw [ofText, prepared]
    rfl
  exact ⟨compiled, made, rfl, (evaluate_eq_function made).1⟩

end Compiled

end SymbolicCalculus
