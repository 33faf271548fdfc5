/-
Module: SymbolicCalculus.Proofs.Calculus.Symbols
Layer: Proofs
Purpose: No operation makes up a variable. What the results are made of is known from their ingredients, and
  an expression is made of no other names than its own symbols; so these are all names that a result can
  have. Only integration brings in a name of its own, that of its variable. The variables of the operations
  inside an expression become visible when these are carried out, but they are symbols of it before.
Main exports: Expr.WellFormed.symbols_simplify, Expr.WellFormed.symbols_resolve,
  Expr.WellFormed.symbols_derivative, Expr.WellFormed.symbols_antiderivative, Expr.no_symbol_is_made_up
-/
import SymbolicCalculus.Proofs.Calculus.WellFormed
import SymbolicCalculus.Proofs.Compile.Agreement

namespace SymbolicCalculus.Expr

/-- Fewer symbols are fewer free symbols. -/
theorem freeSymbols_subset {α : Type} {e result : Expr α} (sub : result.symbols ⊆ e.symbols) :
    result.freeSymbols ⊆ e.freeSymbols :=
  fun _ free => mem_freeSymbols.2 (sub (mem_freeSymbols.1 free))

/-! ### Well-formed expressions -/

namespace WellFormed

variable {e result : Expr Double} {var : String} (formed : e.WellFormed)
include formed

/-- An expression is made of its own symbols. -/
theorem madeOf_symbols : e.MadeOf Double.Plain (· ∈ e.symbols) := MadeOf.rename formed fun _ own => own

theorem symbols_simplify (done : e.simplify = .ok result) : result.symbols ⊆ e.symbols :=
  (madeOf_simplify Double.keeps.toKeeps done formed.madeOf_symbols).name_of_mem

theorem symbols_resolve (done : e.resolve = .ok result) : result.symbols ⊆ e.symbols :=
  (Request.madeOf_outcome Double.keeps (.resolution e) formed.madeOf_symbols result done).name_of_mem

theorem symbols_derivative (done : e.derivative var = .ok result) : result.symbols ⊆ e.symbols :=
  (Request.madeOf_outcome Double.keeps (.derivative e var) formed.madeOf_symbols result done).name_of_mem

/-- The variable of an integration need not occur in the integrand. -/
theorem symbols_antiderivative (done : e.antiderivative var = .ok result) :
    result.symbols ⊆ var :: e.symbols := by
  have own : e.MadeOf Double.Plain (· ∈ var :: e.symbols) :=
    MadeOf.rename formed fun _ own => List.mem_cons_of_mem var own
  have proper : (Request.antiderivative e var).Proper Double.Plain (· ∈ var :: e.symbols) :=
    ⟨own, List.mem_cons_self ..⟩
  exact (Request.madeOf_outcome Double.keeps (.antiderivative e var) proper result done).name_of_mem

end WellFormed

/-! ### Texts -/

/-- No operation makes up a variable. Let an expression be read from a text. Every free symbol of what is
    left after simplification, after resolution or after differentiation is a free symbol of it; and so is
    every free symbol of an antiderivative, the variable of integration apart. -/
theorem no_symbol_is_made_up {text : String} {e : Expr Double} (read : parse text = .ok e) :
    (∀ result, e.simplify = .ok result → result.freeSymbols ⊆ e.freeSymbols) ∧
      (∀ result, e.resolve = .ok result → result.freeSymbols ⊆ e.freeSymbols) ∧
      (∀ var result, e.derivative var = .ok result → result.freeSymbols ⊆ e.freeSymbols) ∧
      ∀ var result, e.antiderivative var = .ok result →
        result.freeSymbols ⊆ var :: e.freeSymbols := by
  have formed := wellFormed_parse read
  refine ⟨fun _ done => freeSymbols_subset (formed.symbols_simplify done),
    fun _ done => freeSymbols_subset (formed.symbols_resolve done),
    fun _ _ done => freeSymbols_subset (formed.symbols_derivative done), ?_⟩
  intro var result done name free
  have among := formed.symbols_antiderivative done (mem_freeSymbols.1 free)
  rcases List.mem_cons.1 among with rfl | old
  · exact List.mem_cons_self ..
  · exact List.mem_cons_of_mem var (mem_freeSymbols.2 old)

/-- The variable of the integral of `y` by `x` becomes visible when it is carried out, and `t` when the
    result is integrated by it. -/
theorem no_symbol_is_made_up_integral :
    let e : Expr Double := call integralName [symbol "y", symbol "x"]
    let area : Expr Double := symbol "y" * symbol "x"
    parse "int(y, x)" = .ok e ∧ e.freeSymbols = ["x", "y"] ∧
      e.resolve = .ok area ∧ area.freeSymbols ⊆ e.freeSymbols ∧
      e.antiderivative "t" = .ok (area * symbol "t") ∧
      (area * symbol "t").freeSymbols ⊆ "t" :: e.freeSymbols := by
  intro e area
  have x : Token.IsIdentifier "x" := (Token.isIdentifier_iff "x").2 ⟨'x', [], rfl, rfl, by simp⟩
  have y : Token.IsIdentifier "y" := (Token.isIdentifier_iff "y").2 ⟨'y', [], rfl, rfl, by simp⟩
  have formed : e.WellFormed := .call rfl (.symbol ⟨y, rfl⟩) ⟨x, rfl⟩
  have read : parse "int(y, x)" = .ok e := formed.printable.parse_text fun value mem => nomatch mem
  have resolved : e.resolve = .ok area := by
    simp only [e, resolve_call, resolveAll_cons, resolveAll_nil, resolve_symbol]
    exact antiderivative_symbol "y" "x"
  have integrated : e.antiderivative "t" = .ok (area * symbol "t") := by
    rw [antiderivative_call, resolved]
    exact antiderivative_binary_of_not_dependsOn rfl
  obtain ⟨-, resolving, -, integrating⟩ := no_symbol_is_made_up read
  exact ⟨read, by decide +kernel, resolved, resolving area resolved, integrated,
    integrating "t" _ integrated⟩

end SymbolicCalculus.Expr
