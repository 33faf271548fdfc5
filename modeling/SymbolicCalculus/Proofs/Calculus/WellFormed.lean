/-
Module: SymbolicCalculus.Proofs.Calculus.WellFormed
Layer: Proofs
Purpose: Everything over machine numbers that is made from a text stays well formed. Reading a text gives
  a well-formed expression, each operation on expressions leads from one to another, and so does any row
  of them. The numbers are what has to be looked at: a folded or negated number may only be the zero with
  a minus sign before zero is added to it, and one added to any exponent is never that zero.
Main exports: Expr.IsVariable, Expr.WellFormed, Double.keeps, Expr.Step, Expr.wellFormed_parse,
  Expr.Step.wellFormed, Expr.everything_made_is_wellFormed
-/
import Mathlib.Logic.Relation
import SymbolicCalculus.Proofs.Calculus.Ingredients
import SymbolicCalculus.Proofs.Double.Reading
import SymbolicCalculus.Proofs.Expr.RoundTrip
import SymbolicCalculus.Proofs.Formula.Ingredients

namespace SymbolicCalculus

/-! ### Machine numbers -/

namespace Double

/-- All numbers that the calculus puts into its results are finite and not the zero with a minus sign. -/
theorem keeps : Request.Keeps Plain where
  zero := by decide +kernel
  one := by decide +kernel
  two := by decide +kernel
  ten := by decide +kernel
  threeHalves := by decide +kernel
  computed _ finite := plain_add_zero finite
  negated _ plain := plain_add_zero (isFinite_neg plain.1)
  finite _ plain := plain.1
  finite_neg _ finite := isFinite_neg finite
  raised _ finite := plain_add_one finite
  slope _ finite nonzero := plain_of_ne_zero finite nonzero

theorem plain_pi : Plain Scalar.pi := by decide +kernel

theorem plain_e : Plain Scalar.e := by decide +kernel

theorem literalsFit : Formula.LiteralsFit Plain := fun _ _ known => plain_of_ofLiteral? known

end Double

namespace Expr

/-! ### Well-formed expressions -/

/-- The name can stand for a variable: it is read as one name, and belongs to no constant. -/
def IsVariable (name : String) : Prop := Token.IsIdentifier name ∧ isConstantName name = false

/-- The numbers in the expression are finite and not the zero with a minus sign, its symbols are
    variables, and its calls are integrals or derivatives of one operand by a variable. -/
def WellFormed (e : Expr Double) : Prop := e.MadeOf Double.Plain IsVariable

/-- A well-formed expression can be written as a formula. -/
theorem WellFormed.printable {e : Expr Double} (formed : e.WellFormed) : e.Printable := by
  induction formed with
  | number plain => exact .number plain.1
  | symbol variable_ => exact .symbol variable_.1 variable_.2
  | neg _ inner => exact .neg inner
  | apply _ inner => exact .apply inner
  | binary _ _ left right => exact .binary left right
  | call operation _ variable_ inner =>
    exact .call operation inner (.symbol variable_.1 variable_.2)

/-- The operations that make one expression from another, where they have a result. -/
inductive Step : Expr Double → Expr Double → Prop where
  | simplify {e r : Expr Double} (done : e.simplify = .ok r) : Step e r
  | resolve {e r : Expr Double} (done : e.resolve = .ok r) : Step e r
  | derivative {e r : Expr Double} {var : String} (variable_ : IsVariable var)
      (done : e.derivative var = .ok r) : Step e r
  | antiderivative {e r : Expr Double} {var : String} (variable_ : IsVariable var)
      (done : e.antiderivative var = .ok r) : Step e r

theorem wellFormed_parse {text : String} {e : Expr Double} (read : parse text = .ok e) : e.WellFormed :=
  madeOf_parse Double.plain_pi Double.plain_e Double.literalsFit read

/-- Each operation leads to a well-formed expression. -/
theorem Step.wellFormed {e r : Expr Double} (step : Step e r) (formed : e.WellFormed) : r.WellFormed := by
  cases step with
  | simplify done => exact madeOf_simplify Double.keeps.toKeeps done formed
  | resolve done => exact Request.madeOf_outcome Double.keeps (.resolution e) formed r done
  | @derivative var _ done =>
    exact Request.madeOf_outcome Double.keeps (.derivative e _) formed r done
  | @antiderivative var variable_ done =>
    exact Request.madeOf_outcome Double.keeps (.antiderivative e _) ⟨formed, variable_⟩ r done

/-- Any row of operations does. -/
theorem wellFormed_of_steps {e r : Expr Double} (steps : Relation.ReflTransGen Step e r)
    (formed : e.WellFormed) : r.WellFormed := by
  induction steps with
  | refl => exact formed
  | tail _ step earlier => exact step.wellFormed earlier

/-- Everything made from a text is well formed: what is read from it, what an operation makes of a
    well-formed expression, and so what any number of operations make of what was read. -/
theorem everything_made_is_wellFormed :
    (∀ (text : String) (e : Expr Double), parse text = .ok e → e.WellFormed) ∧
      (∀ e r : Expr Double, e.WellFormed → Step e r → r.WellFormed) ∧
      ∀ e r : Expr Double, e.WellFormed → Relation.ReflTransGen Step e r → r.WellFormed :=
  ⟨fun _ _ => wellFormed_parse, fun _ _ formed step => step.wellFormed formed,
    fun _ _ formed steps => wellFormed_of_steps steps formed⟩

/-- An integral read from a text, carried out and differentiated. -/
theorem everything_made_is_wellFormed_integral :
    let e : Expr Double := call integralName [symbol "y", symbol "x"]
    let r : Expr Double := ofNat 0 * symbol "x" + symbol "y" * ofNat 1
    parse "int(y, x)" = .ok e ∧ Relation.ReflTransGen Step e r ∧ r.WellFormed := by
  intro e r
  have x : Token.IsIdentifier "x" := (Token.isIdentifier_iff "x").2 ⟨'x', [], rfl, rfl, by simp⟩
  have y : Token.IsIdentifier "y" := (Token.isIdentifier_iff "y").2 ⟨'y', [], rfl, rfl, by simp⟩
  have formed : e.WellFormed := .call rfl (.symbol ⟨y, rfl⟩) ⟨x, rfl⟩
  have read : parse "int(y, x)" = .ok e := formed.printable.parse_text fun value mem => nomatch mem
  have resolved : e.resolve = .ok (symbol "y" * symbol "x") := by
    simp only [e, resolve_call, resolveAll_cons, resolveAll_nil, resolve_symbol]
    exact antiderivative_symbol "y" "x"
  have differentiated : (symbol "y" * symbol "x" : Expr Double).derivative "x" = .ok r := by
    rw [mul_def, derivative_mul, derivative_symbol, derivative_symbol]
    rfl
  have steps : Relation.ReflTransGen Step e r :=
    .tail (.single (.resolve resolved)) (.derivative ⟨x, rfl⟩ differentiated)
  obtain ⟨reading, -, run⟩ := everything_made_is_wellFormed
  exact ⟨read, steps, run e r (reading _ _ read) steps⟩

end Expr

end SymbolicCalculus
