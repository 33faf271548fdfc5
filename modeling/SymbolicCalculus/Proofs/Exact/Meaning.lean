/-
Module: SymbolicCalculus.Proofs.Exact.Meaning
Layer: Proofs
Purpose: What expressions over exact numbers mean. An expression means a real number in a context if its
  value there is that number; then all expressions inside it mean real numbers as well, since nothing is
  done with an element that stands for no number.
Main exports: Expr.Means, Expr.means_binary, Expr.means_apply, Expr.means_congr, Expr.DefinedThroughout,
  Expr.definedThroughout_iff, Expr.along
-/
import SymbolicCalculus.Proofs.Exact.Number
import SymbolicCalculus.Proofs.Expr.Evaluation

namespace SymbolicCalculus.Expr

open Exact

variable {context : Context Exact} {x : ℝ}

/-- The value of the expression is a real number. -/
def Means (context : Context Exact) (e : Expr Exact) (x : ℝ) : Prop :=
  e.evaluate context = .ok (real x)

/-- An expression means one number only. -/
theorem Means.unique {e : Expr Exact} {y : ℝ} (means : e.Means context x)
    (means' : e.Means context y) : x = y := by
  cases means.symm.trans means'
  rfl

/-! ### What each kind of expression means -/

@[simp] theorem means_number {value : Exact} :
    (number value).Means context x ↔ value = real x := by
  constructor
  · intro means
    exact Except.ok.inj means
  · rintro rfl
    rfl

@[simp] theorem means_ofNat {n : ℕ} : (ofNat n : Expr Exact).Means context x ↔ (n : ℝ) = x := by
  rw [ofNat, means_number, ofNat_eq]
  exact ⟨fun same => Exact.real.inj same, fun same => by rw [same]⟩

@[simp] theorem means_symbol {name : String} :
    (symbol name).Means context x ↔ context.get? name = some (real x) := by
  unfold Means evaluate
  cases context.get? name <;> simp

@[simp] theorem means_neg {operand : Expr Exact} :
    (neg operand).Means context x ↔ ∃ y, operand.Means context y ∧ -y = x := by
  unfold Means
  rw [evaluate_neg, map_eq_ok_iff]
  constructor
  · rintro ⟨a, inner, negated⟩
    obtain ⟨y, rfl, same⟩ := neg_eq_real_iff.1 negated
    exact ⟨y, inner, same⟩
  · rintro ⟨y, inner, same⟩
    exact ⟨real y, inner, neg_eq_real_iff.2 ⟨y, rfl, same⟩⟩

@[simp] theorem means_binary {op : BinaryOp} {left right : Expr Exact} :
    (binary op left right).Means context x ↔ ∃ y z, left.Means context y ∧ right.Means context z ∧
      OperationDomain op y z ∧ operationValue op y z = x := by
  unfold Means
  simp only [evaluate_binary, bind_eq_ok_iff, map_eq_ok_iff]
  constructor
  · rintro ⟨a, first, b, second, value⟩
    obtain ⟨y, z, rfl, rfl, domain, same⟩ := apply_eq_real_iff.1 value
    exact ⟨y, z, first, second, domain, same⟩
  · rintro ⟨y, z, first, second, domain, same⟩
    exact ⟨real y, first, real z, second, apply_eq_real_iff.2 ⟨y, z, rfl, rfl, domain, same⟩⟩

/-- In any unit a function means its value with angles in that unit. -/
theorem means_applyIn {function : Elementary} {operand : Expr Exact} :
    (apply function operand).Means context x ↔
      ∃ y, operand.Means context y ∧ function.applyIn context.unit (real y) = real x := by
  unfold Means
  rw [evaluate_apply, map_eq_ok_iff]
  constructor
  · rintro ⟨a, inner, value⟩
    cases a with
    | undefined =>
      rw [applyIn_undefined] at value
      cases value
    | real y => exact ⟨y, inner, value⟩
  · rintro ⟨y, inner, value⟩
    exact ⟨real y, inner, value⟩

/-- In radians a function means its value. -/
theorem means_apply (radians : context.unit = .radians) {function : Elementary}
    {operand : Expr Exact} :
    (apply function operand).Means context x ↔
      ∃ y, operand.Means context y ∧ Domain function y ∧ functionValue function y = x := by
  rw [means_applyIn, radians]
  simp only [applyIn_radians, function_eq_real_iff]
  constructor
  · rintro ⟨y, means, z, same, value⟩
    cases same
    exact ⟨y, means, value⟩
  · rintro ⟨y, means, value⟩
    exact ⟨y, means, y, rfl, value⟩

@[simp] theorem not_means_call {name : String} {arguments : List (Expr Exact)} :
    ¬ (call name arguments).Means context x := nofun

/-- Two contexts that agree on the symbols of an expression give it the same meaning. -/
theorem means_congr {context' : Context Exact} (units : context.unit = context'.unit) {e : Expr Exact}
    (agree : ∀ name ∈ e.symbols, context.get? name = context'.get? name) :
    e.Means context x ↔ e.Means context' x :=
  (sameOutcome_of_agree units agree).eq_ok_iff

/-- A variable that does not occur in an expression may have any value. -/
theorem means_set_of_not_dependsOn {e : Expr Exact} {var : String} (free : e.dependsOn var = false)
    (value : Exact) : e.Means (context.set var value) x ↔ e.Means context x := by
  refine means_congr (Context.unit_set _ _ _) fun name mem => ?_
  have other : var ≠ name := by
    rintro rfl
    exact dependsOn_eq_false_iff.1 free mem
  rw [Context.get?_set, if_neg other]

/-- Giving a variable the value that it has changes nothing. -/
theorem means_set_self {e : Expr Exact} {var : String} {value : Exact}
    (bound : context.get? var = some value) : e.Means (context.set var value) x ↔ e.Means context x := by
  refine means_congr (Context.unit_set _ _ _) fun name _ => ?_
  rw [Context.get?_set]
  split
  · next same => rw [← same, bound]
  · rfl

/-! ### Definedness of all parts -/

/-- The expression and all expressions inside it mean real numbers. -/
def DefinedThroughout (context : Context Exact) (e : Expr Exact) : Prop :=
  ∀ part ∈ e.postOrder, ∃ x, part.Means context x

theorem self_mem_postOrder {α : Type} (e : Expr α) : e ∈ e.postOrder := by
  cases e <;> simp [postOrder]

/-- Nothing that is undefined is inside an expression that is defined. -/
theorem definedThroughout_iff (radians : context.unit = .radians) :
    ∀ e : Expr Exact, e.DefinedThroughout context ↔ ∃ x, e.Means context x
  | number value => by simp [DefinedThroughout, postOrder]
  | symbol name => by simp [DefinedThroughout, postOrder]
  | neg operand => by
      have inner := definedThroughout_iff radians operand
      constructor
      · intro defined
        exact defined _ (self_mem_postOrder _)
      · rintro ⟨x, means⟩ part mem
        rcases List.mem_append.1 mem with inside | last
        · obtain ⟨y, meansInner, -⟩ := means_neg.1 means
          exact inner.2 ⟨y, meansInner⟩ part inside
        · rw [List.mem_singleton.1 last]
          exact ⟨x, means⟩
  | apply function operand => by
      have inner := definedThroughout_iff radians operand
      constructor
      · intro defined
        exact defined _ (self_mem_postOrder _)
      · rintro ⟨x, means⟩ part mem
        rcases List.mem_append.1 mem with inside | last
        · obtain ⟨y, meansInner, -⟩ := (means_apply radians).1 means
          exact inner.2 ⟨y, meansInner⟩ part inside
        · rw [List.mem_singleton.1 last]
          exact ⟨x, means⟩
  | binary op left right => by
      have l := definedThroughout_iff radians left
      have r := definedThroughout_iff radians right
      constructor
      · intro defined
        exact defined _ (self_mem_postOrder _)
      · rintro ⟨x, means⟩ part mem
        obtain ⟨y, z, meansLeft, meansRight, -⟩ := means_binary.1 means
        rcases List.mem_append.1 mem with inside | last
        · rcases List.mem_append.1 inside with front | back
          · exact l.2 ⟨y, meansLeft⟩ part front
          · exact r.2 ⟨z, meansRight⟩ part back
        · rw [List.mem_singleton.1 last]
          exact ⟨x, means⟩
  | call name arguments => by
      constructor
      · intro defined
        exact defined _ (self_mem_postOrder _)
      · rintro ⟨x, means⟩
        exact absurd means not_means_call

/-! ### The value as a function of a variable -/

/-- The real number that the expression means if the variable has a given value; zero if it means none. -/
noncomputable def along (context : Context Exact) (var : String) (e : Expr Exact) (t : ℝ) : ℝ :=
  match e.evaluate (context.set var (real t)) with
  | .ok (real x) => x
  | _ => 0

theorem Means.along_eq {e : Expr Exact} {var : String} {t : ℝ}
    (means : e.Means (context.set var (real t)) x) : e.along context var t = x := by
  rw [along, means]

end SymbolicCalculus.Expr
