/-
Module: SymbolicCalculus.Proofs.Calculus.Preparation
Layer: Proofs
Purpose: What is done with every text before it is answered or made into a function: it is read, its calls
  are carried out, and it may be simplified. Each step fails for reasons of its own. What comes out has no
  call at any depth, since resolution leaves none and simplification brings none in, and no symbol that is
  not a name in the text.
Main exports: Unprepared, unprepared_or_prepared, Unprepared.cause_ne, Expr.callFree_of_resolve,
  Expr.CallFree.simplify, Expr.wellFormed_of_resolved, Expr.exists_token_of_resolved
-/
import SymbolicCalculus.Failure
import SymbolicCalculus.Proofs.Calculus.Resolved
import SymbolicCalculus.Proofs.Calculus.Symbols

namespace SymbolicCalculus

/-- Why a text is not prepared: it stands for no expression; or a call in this cannot be carried out; or,
    if it is to be simplified, the simplifier has reached its limit. -/
inductive Unprepared {α : Type} [Numeral α] (simplifying : Bool) (text : String) : Failure α → Prop where
  | unread {fault : Located FormulaCause} (read : (Expr.parse text : Except _ (Expr α)) = .error fault) :
      Unprepared simplifying text (.ofFormula fault)
  | unresolved {e : Expr α} {cause : CalculusCause α} (read : Expr.parse text = .ok e)
      (resolved : e.resolve = .error cause) : Unprepared simplifying text (.ofCalculus cause)
  | unsettled {e r : Expr α} {limit : PassLimit α} (asked : simplifying = true)
      (read : Expr.parse text = .ok e) (resolved : e.resolve = .ok r)
      (simplified : r.simplify = .error limit) : Unprepared simplifying text (.ofPassLimit limit)

/-- A text is prepared, or there is a reason why not. -/
theorem unprepared_or_prepared (α : Type) [Numeral α] (text : String) :
    (∃ failure : Failure α, Unprepared true text failure) ∨
      ∃ e r s : Expr α, Expr.parse text = .ok e ∧ e.resolve = .ok r ∧ r.simplify = .ok s := by
  cases read : (Expr.parse text : Except _ (Expr α)) with
  | error fault => exact .inl ⟨_, .unread read⟩
  | ok e =>
    cases resolved : e.resolve with
    | error cause => exact .inl ⟨_, .unresolved read resolved⟩
    | ok r =>
      cases simplified : r.simplify with
      | error limit => exact .inl ⟨_, .unsettled rfl read resolved simplified⟩
      | ok s => exact .inr ⟨e, r, s, rfl, resolved, simplified⟩

/-- Evaluation is not what fails. -/
theorem Unprepared.cause_ne {α : Type} [Numeral α] {simplifying : Bool} {text : String}
    {failure : Failure α} (unprepared : Unprepared simplifying text failure) (cause : EvaluationCause) :
    failure.cause ≠ .evaluation cause := by
  cases unprepared with
  | @unread fault =>
    unfold Failure.ofFormula
    split <;> rintro ⟨⟩
  | unresolved => rintro ⟨⟩
  | unsettled => rintro ⟨⟩

namespace Expr

section Calls

variable {α : Type} [Numeral α] {text : String} {e r s : Expr α}

/-- Resolution leaves no call in what was read from a text. -/
theorem callFree_of_resolve (read : parse text = .ok e) (resolved : e.resolve = .ok r) : r.CallFree := by
  have made : e.MadeOf (fun _ => True) _ :=
    madeOf_parse trivial trivial (fun _ _ _ => trivial) read
  exact callDepth_resolve_of_madeOf made resolved

/-- Simplification brings no call in. -/
theorem CallFree.simplify (calls : r.CallFree) (simplified : r.simplify = .ok s) : s.CallFree := by
  have depth := callDepth_simplify simplified
  rw [calls] at depth
  exact Nat.eq_zero_of_le_zero depth

end Calls

/-- What was read from a text and resolved is well formed. -/
theorem wellFormed_of_resolved {text : String} {e r : Expr Double} (read : parse text = .ok e)
    (resolved : e.resolve = .ok r) : r.WellFormed :=
  Step.wellFormed (.resolve resolved) (wellFormed_parse read)

/-- Every symbol of what was read from a text and resolved is a name in the text. -/
theorem exists_token_of_resolved {text name : String} {e r : Expr Double} (read : parse text = .ok e)
    (resolved : e.resolve = .ok r) (mem : name ∈ r.symbols) :
    ∃ token ∈ tokenize text, token.kind = .name ∧ token.lexeme = name :=
  exists_token_of_symbol read ((wellFormed_parse read).symbols_resolve resolved mem)

end Expr

end SymbolicCalculus
