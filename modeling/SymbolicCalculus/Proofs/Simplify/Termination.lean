/-
Module: SymbolicCalculus.Proofs.Simplify.Termination
Layer: Proofs
Purpose: Simplification comes to rest. Every node has a weight of three, with one more for a number below
  zero and for a product whose constant stands on its right, and each rule takes at least one off the
  weight of the whole tree. Two for a node that is gone pay for the number that may stand in its place and
  for the product around it, in which that number may be on the right.
Main exports: FlipsSign, Expr.weight, Rule.weight_result?, Expr.weight_pass, Expr.settle_of_weight,
  Expr.simplifyWithin_of_nodeCount
-/
import SymbolicCalculus.Proofs.Simplify.Firing
import SymbolicCalculus.Simplify

namespace SymbolicCalculus

/-- The negative of a number below zero is not below zero itself. -/
class FlipsSign (α : Type) [Scalar α] : Prop where
  not_belowZero : ∀ value : α, Scalar.belowZero value = true →
    Scalar.belowZero (-value + Scalar.ofNat 0) = false

variable {α : Type}

namespace Expr

/-! ### Where numbers stand -/

/-- The expression is a number. -/
def isLiteral : Expr α → Bool
  | number _ => true
  | _ => false

theorem isLiteral_of_ne_number {e : Expr α} (other : ∀ value, e ≠ number value) :
    e.isLiteral = false := by
  cases e with
  | number value => exact absurd rfl (other value)
  | symbol | neg | apply | binary | call => rfl

/-- The weight of an operation on top of that of its node: one for a product with a number on its right
    only. -/
def orderWeight (op : BinaryOp) (left right : Expr α) : Nat :=
  if op = .mul ∧ left.isLiteral = false ∧ right.isLiteral = true then 1 else 0

/-- One for a number that stands where none has been. -/
def newLiteral (after before : Expr α) : Nat :=
  if after.isLiteral = true ∧ before.isLiteral = false then 1 else 0

theorem orderWeight_le (op : BinaryOp) (left right : Expr α) : orderWeight op left right ≤ 1 := by
  unfold orderWeight
  split <;> decide

theorem orderWeight_number (op : BinaryOp) (value : α) (right : Expr α) :
    orderWeight op (number value) right = 0 := by
  simp [orderWeight, isLiteral]

/-- Only a product can have its number on the wrong side. -/
theorem orderWeight_of_ne {op : BinaryOp} (other : op ≠ .mul) (left right : Expr α) :
    orderWeight op left right = 0 :=
  if_neg fun misplaced => other misplaced.1

theorem newLiteral_binary (op : BinaryOp) (left right before : Expr α) :
    newLiteral (binary op left right) before = 0 :=
  if_neg fun literal => Bool.false_ne_true literal.1

theorem newLiteral_le (after before : Expr α) : newLiteral after before ≤ 1 := by
  unfold newLiteral
  split <;> decide

theorem newLiteral_self (e : Expr α) : newLiteral e e = 0 := by
  cases literal : e.isLiteral <;> simp [newLiteral, literal]

/-- A number that is new on the right of a product pays for its place. -/
theorem orderWeight_after {op : BinaryOp} {left right left' right' : Expr α}
    (stays : left.isLiteral = true → left'.isLiteral = true) :
    orderWeight op left' right' ≤ orderWeight op left right + newLiteral right' right := by
  unfold orderWeight newLiteral
  split
  · next misplaced =>
    obtain ⟨product, notLeft, onRight⟩ := misplaced
    have before : left.isLiteral = false := by
      cases literal : left.isLiteral with
      | false => rfl
      | true => exact absurd (stays literal) (by rw [notLeft]; exact Bool.false_ne_true)
    cases literal : right.isLiteral with
    | true => simp [product, before]
    | false => simp [onRight]
  · exact Nat.zero_le _

/-! ### The weight of a tree -/

variable [Scalar α]

/-- The weight of a number on top of that of its node. -/
def signWeight (value : α) : Nat := if Scalar.belowZero value then 1 else 0

theorem signWeight_le (value : α) : signWeight value ≤ 1 := by
  unfold signWeight
  split <;> decide

mutual

/-- What simplification uses up. -/
def weight : Expr α → Nat
  | number value => 3 + signWeight value
  | symbol _ => 3
  | neg operand => 3 + operand.weight
  | apply _ operand => 3 + operand.weight
  | binary op left right => 3 + left.weight + right.weight + orderWeight op left right
  | call _ arguments => 3 + weightOfAll arguments

/-- The weight of a row of expressions. -/
def weightOfAll : List (Expr α) → Nat
  | [] => 0
  | first :: others => first.weight + weightOfAll others

end

theorem three_le_weight (e : Expr α) : 3 ≤ e.weight := by
  cases e <;> simp only [weight] <;> omega

mutual

theorem weight_le : ∀ e : Expr α, e.weight ≤ 4 * e.nodeCount
  | number value => by
      have bound := signWeight_le value
      simp only [weight, nodeCount]
      omega
  | symbol _ => by
      simp only [weight, nodeCount]
      omega
  | neg operand => by
      have inner := weight_le operand
      simp only [weight, nodeCount]
      omega
  | apply _ operand => by
      have inner := weight_le operand
      simp only [weight, nodeCount]
      omega
  | binary op left right => by
      have l := weight_le left
      have r := weight_le right
      have bound := orderWeight_le op left right
      simp only [weight, nodeCount]
      omega
  | call _ arguments => by
      have inner := weightOfAll_le arguments
      simp only [weight, nodeCount]
      omega

theorem weightOfAll_le : ∀ es : List (Expr α), weightOfAll es ≤ 4 * nodeCountOfAll es
  | [] => Nat.le_refl 0
  | first :: others => by
      have head := weight_le first
      have tail := weightOfAll_le others
      simp only [weightOfAll, nodeCountOfAll]
      omega

end

/-- An operation is heavier than its operands, also when one of them is negated. -/
theorem weight_left (op : BinaryOp) (left right : Expr α) :
    left.weight + 2 ≤ (binary op left right).weight := by
  have heavy := three_le_weight right
  simp only [weight]
  omega

theorem weight_right (op : BinaryOp) (left right : Expr α) :
    right.weight + 2 ≤ (binary op left right).weight := by
  have heavy := three_le_weight left
  simp only [weight]
  omega

theorem weight_neg_right (op : BinaryOp) (left right : Expr α) :
    (neg right).weight + 2 ≤ (binary op left right).weight := by
  have heavy := three_le_weight left
  simp only [weight]
  omega

theorem weight_ofNat (n : Nat) (op : BinaryOp) (left right : Expr α) :
    (ofNat n : Expr α).weight + 2 ≤ (binary op left right).weight := by
  have light := signWeight_le (Scalar.ofNat n : α)
  have heavyLeft := three_le_weight left
  have heavyRight := three_le_weight right
  simp only [ofNat, weight]
  omega

end Expr

namespace Rule

open SymbolicCalculus.Expr

variable [Scalar α] {e result : Expr α}

/-! ### Rules -/

theorem weight_computed (value : α) : (computed value).weight ≤ 4 := by
  have bound := signWeight_le (value + Scalar.ofNat 0)
  simp only [computed, weight]
  omega

/-- A product with a computed number in front weighs at most seven more than the other factor. -/
theorem weight_computed_mul (value : α) (term : Expr α) :
    (binary .mul (computed value) term).weight ≤ term.weight + 7 := by
  have light := weight_computed value
  simp only [computed, weight, orderWeight_number] at light ⊢
  omega

theorem weight_scaled? {a b : α} (scaled : scaled? a b e = some result) :
    result.weight ≤ e.weight + 7 := by
  rcases eq_of_scaled? scaled with rfl | ⟨-, rfl⟩
  · exact Nat.le_add_right _ 7
  · exact weight_computed_mul _ e

/-- The negative of a number below zero weighs less than the number. -/
theorem weight_computed_neg [FlipsSign α] {value : α} (below : Scalar.belowZero value = true) :
    (computed (-value)).weight + 1 ≤ (number value).weight := by
  have above := FlipsSign.not_belowZero value below
  simp only [computed, weight, signWeight, below, above, if_true]
  decide

/-- Two off the weight pay for a number that is left. -/
theorem weight_of_light (light : result.weight + 2 ≤ e.weight) :
    result.weight + newLiteral result e + 1 ≤ e.weight := by
  have literal := newLiteral_le result e
  omega

/-- A lighter right operand makes an operation lighter that is no product. -/
theorem weight_of_lighter {op op' : BinaryOp} {a b c : Expr α} (other : op' ≠ .mul)
    (lighter : c.weight + 1 ≤ b.weight) :
    (binary op' a c).weight + newLiteral (binary op' a c) (binary op a b) + 1 ≤
      (binary op a b).weight := by
  simp only [weight, newLiteral_binary, orderWeight_of_ne other]
  omega

/-- A rule takes at least one off the weight, and one more if it leaves a number. -/
theorem weight_result? [FlipsSign α] {rule : Rule} (fires : rule.result? e = some result) :
    result.weight + newLiteral result e + 1 ≤ e.weight := by
  cases firing_of_result? fires with
  | foldOperation | foldMinus | foldFunction =>
    refine weight_of_light (Nat.le_trans (Nat.add_le_add_right (weight_computed _) 2) ?_)
    simp only [weight]
    omega
  | addZero | subtractZero | multiplyOne | divideOne | powerOne =>
    exact weight_of_light (weight_left _ _ _)
  | zeroAdd | oneMultiply => exact weight_of_light (weight_right _ _ _)
  | subtractFromZero | multiplyNegativeOne => exact weight_of_light (weight_neg_right _ _ _)
  | subtractSelf | multiplyZero | divideZero | divideSelf | powerZero | onePower =>
    exact weight_of_light (weight_ofNat _ _ _ _)
  | addNegated | subtractNegated =>
    refine weight_of_lighter (by decide) ?_
    simp only [weight]
    omega
  | addBelowZero below | subtractBelowZero below =>
    exact weight_of_lighter (by decide) (weight_computed_neg below)
  | @constantFirst a c other =>
    have moves : orderWeight .mul a (number c) = 1 := if_pos ⟨rfl, isLiteral_of_ne_number other, rfl⟩
    simp only [weight, newLiteral_binary, orderWeight_number, moves]
    omega
  | @combineConstantFactors a b term =>
    have light := weight_computed_mul (a * b) term
    refine weight_of_light (Nat.le_trans (Nat.add_le_add_right light 2) ?_)
    simp only [weight]
    omega
  | @negateConstantFactor c a =>
    have light := weight_computed_mul (-c) a
    refine weight_of_light (Nat.le_trans (Nat.add_le_add_right light 2) ?_)
    simp only [weight]
    omega
  | divideConstantFactor scaled | multiplyFraction scaled =>
    have light := weight_scaled? scaled
    refine weight_of_light ?_
    simp only [weight]
    omega
  | @powerOfPower a b c =>
    have light := weight_computed (b * c)
    have power : orderWeight .pow a (computed (b * c)) = 0 := orderWeight_of_ne (by decide) _ _
    refine weight_of_light ?_
    simp only [weight, power]
    omega
  | doubleNegation =>
    refine weight_of_light ?_
    simp only [weight]
    omega

end Rule

namespace Expr

variable [Scalar α]

/-! ### Passes -/

theorem weight_finish [FlipsSign α] (e : Expr α) (applied : List Rule) :
    (e.finish applied).1.weight + (e.finish applied).2.length + newLiteral (e.finish applied).1 e ≤
      e.weight + applied.length := by
  unfold finish
  split
  · next rule result found =>
    obtain ⟨tried, -, fires⟩ := List.exists_of_findSome?_eq_some found
    obtain ⟨made, makes, pair⟩ := Option.map_eq_some_iff.1 fires
    cases pair
    have lighter := Rule.weight_result? makes
    simp only [List.length_append, List.length_singleton]
    omega
  · rw [newLiteral_self]
    exact Nat.le_refl _

/-- A number stays a number. -/
theorem isLiteral_pass (e : Expr α) (literal : e.isLiteral = true) :
    e.pass.1.isLiteral = true := by
  cases e with
  | number value => rfl
  | symbol | neg | apply | binary | call => cases literal

mutual

/-- A pass takes at least as much off the weight as it applies rules, and one more if it leaves a number
    where there was none. -/
theorem weight_pass [FlipsSign α] : ∀ e : Expr α,
    e.pass.1.weight + e.pass.2.length + newLiteral e.pass.1 e ≤ e.weight
  | number _ => weight_finish _ []
  | symbol _ => weight_finish _ []
  | neg operand => by
      have inner := weight_pass operand
      have outer := weight_finish (neg operand.pass.1) operand.pass.2
      have same : newLiteral (neg operand).pass.1 (neg operand) =
          newLiteral (neg operand).pass.1 (neg operand.pass.1) := rfl
      rw [same]
      simp only [pass, weight] at outer ⊢
      omega
  | apply function operand => by
      have inner := weight_pass operand
      have outer := weight_finish (apply function operand.pass.1) operand.pass.2
      have same : newLiteral (apply function operand).pass.1 (apply function operand) =
          newLiteral (apply function operand).pass.1 (apply function operand.pass.1) := rfl
      rw [same]
      simp only [pass, weight] at outer ⊢
      omega
  | binary op left right => by
      have l := weight_pass left
      have r := weight_pass right
      have outer := weight_finish (binary op left.pass.1 right.pass.1)
        (left.pass.2 ++ right.pass.2)
      have order : orderWeight op left.pass.1 right.pass.1 ≤
          orderWeight op left right + newLiteral right.pass.1 right :=
        orderWeight_after (isLiteral_pass left)
      have same : newLiteral (binary op left right).pass.1 (binary op left right) =
          newLiteral (binary op left right).pass.1 (binary op left.pass.1 right.pass.1) := rfl
      rw [same]
      simp only [pass, weight, List.length_append] at outer ⊢
      omega
  | call name arguments => by
      have inner := weightOfAll_passAll arguments
      have outer := weight_finish (call name (passAll arguments).1) (passAll arguments).2
      have same : newLiteral (call name arguments).pass.1 (call name arguments) =
          newLiteral (call name arguments).pass.1 (call name (passAll arguments).1) := rfl
      rw [same]
      simp only [pass, weight] at outer ⊢
      omega

theorem weightOfAll_passAll [FlipsSign α] : ∀ es : List (Expr α),
    weightOfAll (passAll es).1 + (passAll es).2.length ≤ weightOfAll es
  | [] => Nat.le_refl 0
  | first :: others => by
      have head := weight_pass first
      have tail := weightOfAll_passAll others
      simp only [passAll, weightOfAll, List.length_append]
      omega

end

/-! ### Coming to rest -/

/-- Passes come to rest before the weight of the expression is used up. -/
theorem settle_of_weight [FlipsSign α] {passes : Nat} {e : Expr α} {steps : List Rule}
    (enough : e.weight ≤ passes + 2) :
    ∃ simplified : Simplified α, e.settle passes steps = .ok simplified ∧
      simplified.result.weight + simplified.steps.length ≤ e.weight + steps.length := by
  induction passes generalizing e steps with
  | zero =>
    have heavy := three_le_weight e
    omega
  | succ passes ih =>
    rw [settle]
    split
    · exact ⟨_, rfl, Nat.le_refl _⟩
    · next changed =>
      have lighter := weight_pass e
      have applied : 0 < e.pass.2.length := by
        rw [List.isEmpty_iff] at changed
        exact List.length_pos_iff.2 changed
      have left : e.pass.1.weight ≤ passes + 2 := by omega
      obtain ⟨simplified, settled, bound⟩ := ih left
      refine ⟨simplified, settled, ?_⟩
      rw [List.length_append] at bound
      omega

/-- Four passes for every node are enough. -/
theorem simplifyWithin_of_nodeCount [FlipsSign α] {limit : Nat} (e : Expr α)
    (enough : 4 * e.nodeCount ≤ limit) :
    ∃ simplified : Simplified α, e.simplifyWithin limit = .ok simplified := by
  have light : e.weight ≤ limit + 2 :=
    Nat.le_trans (weight_le e) (Nat.le_trans enough (Nat.le_add_right limit 2))
  obtain ⟨simplified, settled, -⟩ := settle_of_weight light
  exact ⟨simplified, by rw [simplifyWithin, settled]⟩

end Expr

end SymbolicCalculus
