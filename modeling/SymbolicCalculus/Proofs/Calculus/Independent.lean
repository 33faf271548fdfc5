/-
Module: SymbolicCalculus.Proofs.Calculus.Independent
Layer: Proofs
Purpose: The derivative of an expression without the variable vanishes in one pass of simplification. It is
  a tree of any size, with the expression itself in its products and quotients. But a pass goes from the
  leaves to the root, and wherever a zero is a factor, whatever became of the other factor, the product is
  a zero. Only a quotient of two zeros would stay.
Main exports: AbsorbsZero, Expr.finish_mul_zero and the lemmas for other operations,
  Expr.DenominatorsStay, Expr.Vanishes, Expr.vanishes_of_not_dependsOn
-/
import SymbolicCalculus.Proofs.Calculus.Derivative
import SymbolicCalculus.Proofs.Simplify.Orderly

namespace SymbolicCalculus

/-- The number is zero. -/
def IsZero {α : Type} [Scalar α] (a : α) : Prop := (a == Scalar.ofNat 0) = true

/-- Numbers with which zeros stay zeros, also where zero is added to what was computed: all zeros that are
    computed are then one and the same. Where the result of an operation is not finite nothing is asked of it,
    since it is not put in the place of the operation. -/
class AbsorbsZero (α : Type) [Scalar α] : Prop where
  zero : IsZero (Scalar.ofNat 0 : α)
  not_one : ∀ a : α, IsZero a → (a == Scalar.ofNat 1) = false
  neg : ∀ a : α, IsZero a → Scalar.isFinite (-a) = true ∧ IsZero (-a + Scalar.ofNat 0)
  add : ∀ a b : α, IsZero a → IsZero b → Scalar.isFinite (a + b) = true ∧ IsZero (a + b + Scalar.ofNat 0)
  sub : ∀ a b : α, IsZero a → IsZero b → Scalar.isFinite (a - b) = true ∧ IsZero (a - b + Scalar.ofNat 0)
  mul : ∀ a b : α, IsZero a ∨ IsZero b → Scalar.isFinite (a * b) = true → IsZero (a * b + Scalar.ofNat 0)
  div : ∀ a b : α, IsZero a → ¬ IsZero b → Scalar.isFinite (a / b) = true →
    IsZero (a / b + Scalar.ofNat 0)
  computed : ∀ a : α, Scalar.isFinite a = true → IsZero (a + Scalar.ofNat 0) →
    a + Scalar.ofNat 0 = Scalar.ofNat 0

namespace Expr

variable {α : Type}

/-- A variable occurs in an operation if it occurs in an operand. -/
theorem dependsOn_binary (op : BinaryOp) (u v : Expr α) (var : String) :
    (binary op u v).dependsOn var = (u.dependsOn var || v.dependsOn var) := by
  simp [dependsOn, symbols]

variable [Scalar α]

/-! ### The rule at a node -/

/-- No rule before the one that applies first applies. -/
theorem result?_of_appliesFirst {rule : Rule} {e result : Expr α}
    (first : rule.AppliesFirst e result) (earlier : Rule)
    (order : Rule.all.idxOf earlier < Rule.all.idxOf rule) :
    earlier.result? e = none := by
  obtain ⟨-, before, after, split_, none_⟩ := first
  refine none_ earlier ?_
  have atMost : Rule.all.idxOf rule ≤ before.length := by
    rw [split_, List.idxOf_append]
    split
    · exact List.idxOf_le_length
    · rw [List.idxOf_cons_self]
      exact Nat.le_of_eq (Nat.zero_add _)
  by_contra outside
  rw [split_, List.idxOf_append_of_notMem outside] at order
  rw [← split_] at order
  omega

/-- If a rule fits at a node, then the node becomes what that rule makes of it, or what a rule tried earlier
    does. -/
theorem finish_of_fits (Outcome : Expr α → Prop) {rule : Rule} {e result : Expr α}
    (fits : rule.result? e = some result) (here : Outcome result)
    (before : ∀ earlier other, Rule.all.idxOf earlier < Rule.all.idxOf rule →
      Rule.Firing earlier e other → Outcome other)
    (applied : List Rule) : Outcome (e.finish applied).1 := by
  unfold finish
  split
  · next taken other found =>
    have first := appliesFirst_of_firstRule? found
    rcases Nat.lt_trichotomy (Rule.all.idxOf taken) (Rule.all.idxOf rule) with less | equal | greater
    · exact before taken other less (Rule.firing_of_result? first.1)
    · have same : taken = rule := (List.idxOf_inj (mem_all taken)).1 equal
      have results : some other = some result := by rw [← fits, ← first.1, same]
      exact Option.some.inj results ▸ here
    · cases (result?_of_appliesFirst first rule greater).symm.trans fits
  · next none_ => cases (result?_of_firstRule? none_ rule).symm.trans fits

theorem finish_of_not_firing {e : Expr α} (still : ∀ rule result, ¬ Rule.Firing rule e result)
    (applied : List Rule) : (e.finish applied).1 = e := by
  rw [finish_of_no_fit fun rule => ?_]
  cases fires : rule.result? e with
  | none => rfl
  | some result => exact absurd (Rule.firing_of_result? fires) (still rule result)

theorem finish_of_fold? {e result : Expr α} (folds : Rule.fold? e = some result)
    (applied : List Rule) : (e.finish applied).1 = result := by
  rw [finish, firstRule?_of_fold? folds]

/-- An operation on numbers is carried out if the result is finite. -/
theorem finish_binary_number {op : BinaryOp} {x y : α} (finite : Scalar.isFinite (op.apply x y) = true)
    (applied : List Rule) :
    ((binary op (number x) (number y)).finish applied).1 = Rule.computed (op.apply x y) :=
  finish_of_fold? (e := binary op (number x) (number y)) (Rule.finite?_of_isFinite finite) applied

theorem finish_neg_number {x : α} (finite : Scalar.isFinite (-x) = true) (applied : List Rule) :
    ((neg (number x)).finish applied).1 = Rule.computed (-x) :=
  finish_of_fold? (e := neg (number x)) (Rule.finite?_of_isFinite finite) applied

/-- Only a number is a whole number. -/
theorem exists_number_of_isNat {n : Nat} {e : Expr α} (known : e.isNat n = true) :
    ∃ value, e = number value ∧ (value == Scalar.ofNat n) = true := by
  cases e with
  | number value => exact ⟨value, rfl, known⟩
  | symbol | neg | apply | binary | call => cases known

/-! ### Zeros at a node -/

section Zeros

variable [AbsorbsZero α] {a b : Expr α} {applied : List Rule}

theorem isNat_zero_ofNat : (ofNat 0 : Expr α).isNat 0 = true := AbsorbsZero.zero

/-- Zero is not one. -/
theorem isNat_one_zero : (ofNat 0 : Expr α).isNat 1 = false := AbsorbsZero.not_one _ AbsorbsZero.zero

/-- A zero that was computed is the number zero. -/
theorem computed_eq_zero {value : α} (finite : Scalar.isFinite value = true)
    (zero : IsZero (value + Scalar.ofNat 0)) : Rule.computed value = ofNat 0 :=
  congrArg number (AbsorbsZero.computed value finite zero)

theorem finish_neg_zero : ((neg (ofNat 0 : Expr α)).finish applied).1 = ofNat 0 := by
  obtain ⟨finite, zero⟩ := AbsorbsZero.neg (Scalar.ofNat 0 : α) AbsorbsZero.zero
  rw [ofNat, finish_neg_number finite]
  exact computed_eq_zero finite zero

theorem finish_zero_add_zero :
    ((binary .add (ofNat 0 : Expr α) (ofNat 0)).finish applied).1 = ofNat 0 := by
  obtain ⟨finite, zero⟩ :=
    AbsorbsZero.add (Scalar.ofNat 0 : α) (Scalar.ofNat 0) AbsorbsZero.zero AbsorbsZero.zero
  rw [ofNat, finish_binary_number finite]
  exact computed_eq_zero finite zero

theorem finish_zero_sub_zero :
    ((binary .sub (ofNat 0 : Expr α) (ofNat 0)).finish applied).1 = ofNat 0 := by
  obtain ⟨finite, zero⟩ :=
    AbsorbsZero.sub (Scalar.ofNat 0 : α) (Scalar.ofNat 0) AbsorbsZero.zero AbsorbsZero.zero
  rw [ofNat, finish_binary_number finite]
  exact computed_eq_zero finite zero

/-- The rules before the one for zeros fold a product with a zero, or leave out a one. -/
theorem finish_mul_zero (zero : a = ofNat 0 ∨ b = ofNat 0) :
    ((binary .mul a b).finish applied).1 = ofNat 0 := by
  have isZero : a.isNat 0 = true ∨ b.isNat 0 = true := by
    rcases zero with rfl | rfl
    · exact .inl isNat_zero_ofNat
    · exact .inr isNat_zero_ofNat
  have fits : Rule.multiplyZero.result? (binary .mul a b) = some (ofNat 0) :=
    if_pos (Bool.or_eq_true _ _ ▸ isZero)
  refine finish_of_fits (· = ofNat 0) fits rfl ?_ applied
  intro earlier result order firing
  cases firing with
  | foldOperation finite => exact computed_eq_zero finite (AbsorbsZero.mul _ _ isZero finite)
  | multiplyOne one =>
    refine zero.resolve_right fun onRight => ?_
    rw [onRight, isNat_one_zero] at one
    cases one
  | oneMultiply one =>
    refine zero.resolve_left fun onLeft => ?_
    rw [onLeft, isNat_one_zero] at one
    cases one
  | multiplyZero | constantFirst | combineConstantFactors | multiplyNegativeOne | multiplyFraction =>
    exact absurd order (by decide)

/-- The rules before the one for zeros fold zero over something else, or leave out a one. -/
theorem finish_zero_div (other : b.isNat 0 = false) :
    ((binary .div (ofNat 0) b).finish applied).1 = ofNat 0 := by
  have fits : Rule.divideZero.result? (binary .div (ofNat 0) b) = some (ofNat 0) :=
    if_pos (by rw [isNat_zero_ofNat, other]; rfl)
  refine finish_of_fits (· = ofNat 0) fits rfl ?_ applied
  intro earlier result order firing
  cases firing with
  | foldOperation finite =>
    have zero := AbsorbsZero.div _ _ AbsorbsZero.zero (Bool.eq_false_iff.1 other) finite
    exact computed_eq_zero finite zero
  | divideOne => rfl
  | divideZero | divideSelf => exact absurd order (by decide)

end Zeros

/-! ### Derivatives of independent expressions -/

section Independent

/-- No denominator in the expression is the number zero after a pass. -/
def DenominatorsStay (e : Expr α) : Prop :=
  ∀ numerator denominator : Expr α, numerator / denominator ∈ e.postOrder →
    denominator.pass.1.isNat 0 = false

theorem DenominatorsStay.of_binary {op : BinaryOp} {u v : Expr α}
    (stay : (binary op u v).DenominatorsStay) : u.DenominatorsStay ∧ v.DenominatorsStay :=
  ⟨fun n d mem => stay n d (List.mem_append_left _ (List.mem_append_left _ mem)),
    fun n d mem => stay n d (List.mem_append_left _ (List.mem_append_right _ mem))⟩

/-- The derivative exists, and a pass makes the number zero of it. -/
def Vanishes (var : String) (e : Expr α) : Prop :=
  ∃ d, e.derivative var = .ok d ∧ d.pass.1 = ofNat 0

variable [AbsorbsZero α] {var : String} {u v : Expr α}

theorem Vanishes.neg (vanishes : Vanishes var u) : Vanishes var (neg u) := by
  obtain ⟨du, derived, zero⟩ := vanishes
  refine ⟨-du, ?_, ?_⟩
  · rw [derivative_neg, derived]
    rfl
  · rw [neg_def, pass, zero]
    exact finish_neg_zero

/-- The outer derivative does not matter. -/
theorem Vanishes.apply {function : Elementary} (other : function ≠ .abs) (vanishes : Vanishes var u) :
    Vanishes var (apply function u) := by
  obtain ⟨du, derived, zero⟩ := vanishes
  obtain ⟨outer, known⟩ := exists_derivativeAt? other u
  refine ⟨outer * du, ?_, ?_⟩
  · rw [derivative_apply, known, derived]
    rfl
  · rw [mul_def, pass]
    exact finish_mul_zero (.inr zero)

theorem Vanishes.add (left : Vanishes var u) (right : Vanishes var v) :
    Vanishes var (binary .add u v) := by
  obtain ⟨du, derivedLeft, zeroLeft⟩ := left
  obtain ⟨dv, derivedRight, zeroRight⟩ := right
  refine ⟨du + dv, ?_, ?_⟩
  · rw [derivative_add, derivedLeft, derivedRight]
    rfl
  · rw [add_def, pass, zeroLeft, zeroRight]
    exact finish_zero_add_zero

theorem Vanishes.sub (left : Vanishes var u) (right : Vanishes var v) :
    Vanishes var (binary .sub u v) := by
  obtain ⟨du, derivedLeft, zeroLeft⟩ := left
  obtain ⟨dv, derivedRight, zeroRight⟩ := right
  refine ⟨du - dv, ?_, ?_⟩
  · rw [derivative_sub, derivedLeft, derivedRight]
    rfl
  · rw [sub_def, pass, zeroLeft, zeroRight]
    exact finish_zero_sub_zero

/-- Both products have a zero, so both are zeros, and so is their sum. -/
theorem Vanishes.mul (left : Vanishes var u) (right : Vanishes var v) :
    Vanishes var (binary .mul u v) := by
  obtain ⟨du, derivedLeft, zeroLeft⟩ := left
  obtain ⟨dv, derivedRight, zeroRight⟩ := right
  refine ⟨du * v + u * dv, ?_, ?_⟩
  · rw [derivative_mul, derivedLeft, derivedRight]
    rfl
  · have first : (du * v).pass.1 = ofNat 0 := by
      rw [mul_def, pass]
      exact finish_mul_zero (.inl zeroLeft)
    have second : (u * dv).pass.1 = ofNat 0 := by
      rw [mul_def, pass]
      exact finish_mul_zero (.inr zeroRight)
    rw [add_def, pass, first, second]
    exact finish_zero_add_zero

/-- A denominator without the variable stays below the derivative of the numerator. -/
theorem Vanishes.div (left : Vanishes var u) (free : v.dependsOn var = false)
    (stays : v.pass.1.isNat 0 = false) : Vanishes var (binary .div u v) := by
  obtain ⟨du, derived, zero⟩ := left
  refine ⟨du / v, ?_, ?_⟩
  · rw [derivative_div, if_neg (by rw [free]; exact Bool.false_ne_true), derived]
    rfl
  · rw [div_def, pass, zero]
    exact finish_zero_div stays

theorem Vanishes.pow (left : Vanishes var u) (free : v.dependsOn var = false) :
    Vanishes var (binary .pow u v) := by
  obtain ⟨du, derived, zero⟩ := left
  refine ⟨v * u ^ (v - ofNat 1) * du, ?_, ?_⟩
  · rw [derivative_pow, if_pos (by rw [free]; rfl), derived]
    rfl
  · rw [mul_def, pass]
    exact finish_mul_zero (.inr zero)

/-- The derivative of an expression without the variable is zero after one pass, if the expression has
    no calls and no absolute values, and no denominator in it becomes zero. By induction on the expression:
    every rule of differentiation leads to operations of which the derivatives of the operands make zeros. -/
theorem vanishes_of_not_dependsOn : ∀ {e : Expr α}, e.CallFree → e.AbsFree → e.DenominatorsStay →
    e.dependsOn var = false → Vanishes var e
  | number value, _, _, _, _ => ⟨_, derivative_number value var, rfl⟩
  | symbol name, _, _, _, free => by
      refine ⟨ofNat 0, ?_, rfl⟩
      rw [derivative_symbol, if_neg]
      rintro rfl
      simp [dependsOn, symbols] at free
  | .neg u, calls, abs, stay, free => by
      have inner : Vanishes var u := vanishes_of_not_dependsOn calls abs.of_neg
        (fun n d mem => stay n d (List.mem_append_left _ mem)) free
      exact inner.neg
  | .apply function u, calls, abs, stay, free => by
      obtain ⟨other, absInner⟩ := abs.of_apply
      have inner : Vanishes var u := vanishes_of_not_dependsOn calls absInner
        (fun n d mem => stay n d (List.mem_append_left _ mem)) free
      exact inner.apply other
  | binary op u v, calls, abs, stay, free => by
      obtain ⟨callsLeft, callsRight⟩ := calls.of_binary
      obtain ⟨absLeft, absRight⟩ := abs.of_binary
      obtain ⟨stayLeft, stayRight⟩ := stay.of_binary
      obtain ⟨freeLeft, freeRight⟩ := Bool.or_eq_false_iff.1 (dependsOn_binary op u v var ▸ free)
      have left : Vanishes var u := vanishes_of_not_dependsOn callsLeft absLeft stayLeft freeLeft
      have right : Vanishes var v := vanishes_of_not_dependsOn callsRight absRight stayRight freeRight
      cases op with
      | add => exact left.add right
      | sub => exact left.sub right
      | mul => exact left.mul right
      | div => exact left.div freeRight (stay u v (List.mem_append_right _ (List.mem_singleton_self _)))
      | pow => exact left.pow freeRight
  | call name arguments, calls, _, _, _ => nomatch calls

end Independent

end Expr

end SymbolicCalculus
