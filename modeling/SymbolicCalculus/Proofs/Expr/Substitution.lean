/-
Module: SymbolicCalculus.Proofs.Expr.Substitution
Layer: Proofs
Purpose: To put an expression in the place of a variable and to give the variable the value of that
  expression is the same to evaluation. The two runs look up different names, but each comes to the same
  calls and the same unbound symbols from the left; the replacement has a value, so nothing in it is ever
  blamed. Symbols come and go as the occurrences of the variable do, those inside of calls included.
Main exports: Expr.symbols_substitute, Expr.mem_freeSymbols_substitute, Expr.substitute_of_not_dependsOn,
  Expr.sameOutcome_substitute, Expr.evaluate_after_substitution
-/
import SymbolicCalculus.Proofs.Expr.Evaluation

namespace SymbolicCalculus.Expr

variable {α : Type} {var : String} {r : Expr α}

/-! ### Symbols -/

mutual

/-- Each occurrence of the variable gives way to the symbols of the replacement. -/
theorem symbols_substitute : ∀ e : Expr α, (e.substitute var r).symbols =
    e.symbols.flatMap fun name => if name = var then r.symbols else [name]
  | number _ => rfl
  | symbol name => by
      rw [substitute, symbols, List.flatMap_singleton]
      split <;> rfl
  | neg operand | apply _ operand => by
      rw [substitute, symbols, symbols, symbols_substitute operand]
  | binary _ left right => by
      rw [substitute, symbols, symbols, symbols_substitute left, symbols_substitute right,
        List.flatMap_append]
  | call _ arguments => by
      rw [substitute, symbols, symbols, symbolsOfAll_substituteAll arguments]

theorem symbolsOfAll_substituteAll : ∀ es : List (Expr α), symbolsOfAll (substituteAll es var r) =
    (symbolsOfAll es).flatMap fun name => if name = var then r.symbols else [name]
  | [] => rfl
  | first :: others => by
      rw [substituteAll, symbolsOfAll, symbolsOfAll, symbols_substitute first,
        symbolsOfAll_substituteAll others, List.flatMap_append]

end

/-- The free symbols that are left are the other ones, and those of the replacement if it has been put
    anywhere. -/
theorem mem_freeSymbols_substitute {e : Expr α} {name : String} :
    name ∈ (e.substitute var r).freeSymbols ↔
      (name ∈ e.freeSymbols ∧ name ≠ var) ∨ (var ∈ e.freeSymbols ∧ name ∈ r.freeSymbols) := by
  simp only [mem_freeSymbols, symbols_substitute, List.mem_flatMap]
  constructor
  · rintro ⟨old, mem, made⟩
    split at made
    · next same => exact .inr ⟨same ▸ mem, made⟩
    · next other =>
      rw [List.mem_singleton.1 made]
      exact .inl ⟨mem, other⟩
  · rintro (⟨mem, other⟩ | ⟨mem, inside⟩)
    · exact ⟨name, mem, by rw [if_neg other]; exact List.mem_singleton_self name⟩
    · exact ⟨var, mem, by rwa [if_pos rfl]⟩

mutual

theorem substitute_of_not_mem : ∀ {e : Expr α}, var ∉ e.symbols → e.substitute var r = e
  | number _, _ => rfl
  | symbol name, absent => by
      rw [substitute, if_neg fun same => absent (List.mem_singleton.2 same.symm)]
  | neg operand, absent => by
      rw [substitute, substitute_of_not_mem (e := operand) absent]
  | apply _ operand, absent => by
      rw [substitute, substitute_of_not_mem (e := operand) absent]
  | binary _ left right, absent => by
      rw [symbols, List.mem_append, not_or] at absent
      rw [substitute, substitute_of_not_mem absent.1, substitute_of_not_mem absent.2]
  | call _ arguments, absent => by
      rw [symbols] at absent
      rw [substitute, substituteAll_of_not_mem absent]

theorem substituteAll_of_not_mem : ∀ {es : List (Expr α)}, var ∉ symbolsOfAll es →
    substituteAll es var r = es
  | [], _ => rfl
  | first :: others, absent => by
      rw [symbolsOfAll, List.mem_append, not_or] at absent
      rw [substituteAll, substitute_of_not_mem absent.1, substituteAll_of_not_mem absent.2]

end

/-- Where there is nothing to replace, nothing is changed. -/
theorem substitute_of_not_dependsOn {e : Expr α} (independent : e.dependsOn var = false) :
    e.substitute var r = e :=
  substitute_of_not_mem (dependsOn_eq_false_iff.1 independent)

/-! ### Values -/

variable [Scalar α] {context : Context α} {w : α}

/-- Evaluation has the same outcome whether the variable is replaced or has the value of the replacement.
    Calls are replaced in as well, but neither run looks into them. -/
theorem sameOutcome_substitute (has : r.evaluate context = .ok w) : ∀ e : Expr α,
    SameOutcome ((e.substitute var r).evaluate context) (e.evaluate (context.set var w))
  | number value => .value value
  | symbol name => by
      rw [substitute, evaluate, Context.get?_set]
      by_cases same : name = var
      · rw [if_pos same, if_pos same.symm, has]
        exact .value w
      · rw [if_neg same, if_neg (Ne.symm same), evaluate]
        cases context.get? name with
        | some x => exact .value x
        | none => exact .blame (.undefinedVariable name _ _)
  | neg operand => by
      rw [substitute, evaluate_neg, evaluate_neg]
      exact .map _ (sameOutcome_substitute has operand)
  | apply _ operand => by
      rw [substitute, evaluate_apply, evaluate_apply, Context.unit_set]
      exact .map _ (sameOutcome_substitute has operand)
  | binary _ left right => by
      rw [substitute, evaluate_binary, evaluate_binary]
      exact .bind (sameOutcome_substitute has left) fun _ => .map _ (sameOutcome_substitute has right)
  | call _ _ => .refl _

/-- Substitution. In a context in which the replacement has a value, an expression in which it has been put
    for a variable has the outcome of the expression itself with that value for the variable: the same value,
    or a complaint of the same kind about the same name. Whatever the context, the free symbols after a
    substitution are those other than the variable, and those of the replacement if the variable was among
    them; and an expression in which the variable does not occur stays as it is. -/
theorem evaluate_after_substitution (e r : Expr α) (var : String) :
    (∀ (context : Context α) (w : α), r.evaluate context = .ok w →
      SameOutcome ((e.substitute var r).evaluate context) (e.evaluate (context.set var w))) ∧
    (∀ name, name ∈ (e.substitute var r).freeSymbols ↔
      (name ∈ e.freeSymbols ∧ name ≠ var) ∨ (var ∈ e.freeSymbols ∧ name ∈ r.freeSymbols)) ∧
    (e.dependsOn var = false → e.substitute var r = e) :=
  ⟨fun _ _ has => sameOutcome_substitute has e, fun _ => mem_freeSymbols_substitute,
    substitute_of_not_dependsOn⟩

/-- The variable is replaced inside of a call as well. The sum has no value before or after: the call is
    blamed in both. -/
theorem evaluate_after_substitution_call :
    let r : Expr Double := symbol "t" + ofNat 1
    let e : Expr Double := symbol "x" + call derivativeName [symbol "x", symbol "y"]
    let replaced : Expr Double := r + call derivativeName [r, symbol "y"]
    let context : Context Double := Context.empty.set "t" (.ofFloat 2)
    let w : Double := .ofFloat 2 + Scalar.ofNat 1
    r.evaluate context = .ok w ∧ e.substitute "x" r = replaced ∧
      SameOutcome (replaced.evaluate context) (e.evaluate (context.set "x" w)) ∧
      (∀ name, name ∈ replaced.freeSymbols ↔
        (name ∈ e.freeSymbols ∧ name ≠ "x") ∨ ("x" ∈ e.freeSymbols ∧ name ∈ r.freeSymbols)) ∧
      e.dependsOn "z" = false ∧ e.substitute "z" r = e := by
  intro r e replaced context w
  have has : r.evaluate context = .ok w := rfl
  have independent : e.dependsOn "z" = false := by decide
  obtain ⟨outcomes, symbols_, -⟩ := evaluate_after_substitution e r "x"
  obtain ⟨-, -, unchanged⟩ := evaluate_after_substitution e r "z"
  exact ⟨has, rfl, outcomes context w has, symbols_, independent, unchanged independent⟩

end SymbolicCalculus.Expr
