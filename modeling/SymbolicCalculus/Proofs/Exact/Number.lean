/-
Module: SymbolicCalculus.Proofs.Exact.Number
Layer: Proofs
Purpose: Exact numbers: the real numbers, and one element that stands for no number. An operation outside
  its domain gives that element, and so does every operation on it; so what has a real value has only
  operands with real values. All that the library does runs on these numbers as it does on others.
Main exports: Exact, Exact.PowerDomain, Exact.Domain, Exact.functionValue, Exact.OperationDomain,
  Exact.operationValue, Exact.apply_eq_real_iff, Exact.function_eq_real_iff
-/
import Mathlib
import SymbolicCalculus.Scalar

namespace SymbolicCalculus

/-- A real number, or no number at all. -/
inductive Exact where
  | undefined
  | real (value : ℝ)

namespace Exact

/-! ### Domains -/

/-- The power `a ^ b` exists: the base is positive, or it is zero and the exponent is not negative, or it
    is negative and the exponent is whole. -/
def PowerDomain (a b : ℝ) : Prop := 0 < a ∨ a = 0 ∧ 0 ≤ b ∨ a < 0 ∧ ∃ n : ℤ, b = n

/-- The function exists at a number. -/
def Domain : Elementary → ℝ → Prop
  | .tan, x => Real.cos x ≠ 0
  | .asin, x | .acos, x => -1 ≤ x ∧ x ≤ 1
  | .ln, x | .log10, x => 0 < x
  | .sqrt, x => 0 ≤ x
  | _, _ => True

/-- The value of a function where it exists. -/
noncomputable def functionValue : Elementary → ℝ → ℝ
  | .sin => Real.sin
  | .cos => Real.cos
  | .tan => Real.tan
  | .asin => Real.arcsin
  | .acos => Real.arccos
  | .atan => Real.arctan
  | .sinh => Real.sinh
  | .cosh => Real.cosh
  | .tanh => Real.tanh
  | .exp => Real.exp
  | .ln => Real.log
  | .log10 => Real.logb 10
  | .sqrt => Real.sqrt
  | .abs => fun x => |x|

/-- The operation exists on two numbers. -/
def OperationDomain : BinaryOp → ℝ → ℝ → Prop
  | .div, _, y => y ≠ 0
  | .pow, x, y => PowerDomain x y
  | _, _, _ => True

/-- The result of an operation where it exists. -/
noncomputable def operationValue : BinaryOp → ℝ → ℝ → ℝ
  | .add, x, y => x + y
  | .sub, x, y => x - y
  | .mul, x, y => x * y
  | .div, x, y => x / y
  | .pow, x, y => x ^ y

open Classical in
/-- The real number, if it exists. -/
noncomputable def realIf (exists_ : Prop) (value : ℝ) : Exact :=
  if exists_ then real value else undefined

/-- An operation on exact numbers. -/
noncomputable def operate (op : BinaryOp) : Exact → Exact → Exact
  | real x, real y => realIf (OperationDomain op x y) (operationValue op x y)
  | _, _ => undefined

/-- A property of real numbers that no other element has. -/
noncomputable def holds (property : ℝ → Prop) : Exact → Bool
  | undefined => false
  | real x => open Classical in decide (property x)

noncomputable instance : Scalar Exact where
  add := operate .add
  sub := operate .sub
  mul := operate .mul
  div := operate .div
  neg
    | undefined => undefined
    | real x => real (-x)
  beq
    | real x, real y => open Classical in decide (x = y)
    | _, _ => false
  ofNat n := real n
  pow := operate .pow
  apply function
    | undefined => undefined
    | real x => realIf (Domain function x) (functionValue function x)
  pi := real Real.pi
  e := real (Real.exp 1)
  isNaN
    | undefined => true
    | real _ => false
  isFinite := holds fun _ => True
  hasMinus := holds (· < 0)
  belowZero := holds (· < 0)
  isWhole := holds fun x => ∃ n : ℤ, x = n
  isEven := holds fun x => ∃ n : ℤ, x = 2 * n

/-! ### What has a real value -/

theorem realIf_eq_real_iff {exists_ : Prop} {value x : ℝ} :
    realIf exists_ value = real x ↔ exists_ ∧ value = x := by
  unfold realIf
  split
  · next holds => simp [holds]
  · next fails => simp [fails]

@[simp] theorem holds_real_iff (property : ℝ → Prop) (x : ℝ) :
    holds property (real x) = true ↔ property x := by
  simp [holds]

theorem apply_eq_operate (op : BinaryOp) (a b : Exact) : op.apply a b = operate op a b := by
  cases op <;> rfl

/-- An operation has a real value exactly if it exists on real operands. -/
theorem apply_eq_real_iff {op : BinaryOp} {a b : Exact} {z : ℝ} :
    op.apply a b = real z ↔
      ∃ x y, a = real x ∧ b = real y ∧ OperationDomain op x y ∧ operationValue op x y = z := by
  rw [apply_eq_operate]
  constructor
  · intro value
    cases a with
    | undefined => cases b <;> cases value
    | real x =>
      cases b with
      | undefined => cases value
      | real y =>
        obtain ⟨domain, value⟩ := realIf_eq_real_iff.1 value
        exact ⟨x, y, rfl, rfl, domain, value⟩
  · rintro ⟨x, y, rfl, rfl, domain, value⟩
    exact realIf_eq_real_iff.2 ⟨domain, value⟩

/-- A function has a real value exactly if it exists at a real number. -/
theorem function_eq_real_iff {function : Elementary} {a : Exact} {z : ℝ} :
    Scalar.apply function a = real z ↔
      ∃ x, a = real x ∧ Domain function x ∧ functionValue function x = z := by
  constructor
  · intro value
    cases a with
    | undefined => cases value
    | real x =>
      obtain ⟨domain, value⟩ := realIf_eq_real_iff.1 value
      exact ⟨x, rfl, domain, value⟩
  · rintro ⟨x, rfl, domain, value⟩
    exact realIf_eq_real_iff.2 ⟨domain, value⟩

theorem neg_eq_real_iff {a : Exact} {z : ℝ} : -a = real z ↔ ∃ x, a = real x ∧ -x = z := by
  constructor
  · intro value
    cases a with
    | undefined => cases value
    | real x =>
      cases value
      exact ⟨x, rfl, rfl⟩
  · rintro ⟨x, rfl, rfl⟩
    rfl

/-- With angles in radians a function is what it is. -/
theorem applyIn_radians (function : Elementary) (a : Exact) :
    function.applyIn .radians a = Scalar.apply function a := by
  rw [Elementary.applyIn]
  split
  · rfl
  · split <;> rfl

/-- No function makes a number of what is none, whatever the unit of its angles. -/
theorem applyIn_undefined (function : Elementary) (unit : AngleUnit) :
    function.applyIn unit undefined = undefined := by
  cases function <;> cases unit <;> rfl

/-! ### Operations on real numbers -/

theorem ofNat_eq (n : ℕ) : (Scalar.ofNat n : Exact) = real n := rfl

theorem neg_real (x : ℝ) : -real x = real (-x) := rfl

theorem beq_iff (a b : Exact) : (a == b) = true ↔ ∃ x, a = real x ∧ b = real x := by
  constructor
  · intro same
    cases a with
    | undefined => cases b <;> cases same
    | real x =>
      cases b with
      | undefined => cases same
      | real y =>
        have same : x = y := of_decide_eq_true same
        exact ⟨x, rfl, by rw [same]⟩
  · rintro ⟨x, rfl, rfl⟩
    exact decide_eq_true rfl

theorem add_real (x y : ℝ) : real x + real y = real (x + y) :=
  realIf_eq_real_iff.2 ⟨trivial, rfl⟩

theorem mul_real (x y : ℝ) : real x * real y = real (x * y) :=
  realIf_eq_real_iff.2 ⟨trivial, rfl⟩

/-- Adding zero to a number changes nothing. -/
theorem real_add_ofNat_zero (x : ℝ) : real x + Scalar.ofNat 0 = real x := by
  rw [ofNat_eq, add_real, Nat.cast_zero, add_zero]

/-- Equal parts of a tree are equal numbers. -/
theorem eq_of_same {a b : Exact} (same : Scalar.same a b = true) : a = b := by
  cases a with
  | undefined =>
    cases b with
    | undefined => rfl
    | real y => cases same
  | real x =>
    rw [Scalar.same, Bool.or_eq_true] at same
    rcases same with equal | none_
    · obtain ⟨z, left, right⟩ := (beq_iff _ _).1 equal
      rw [left, right]
    · cases none_

end Exact

end SymbolicCalculus
