/-
Module: SymbolicCalculus.Proofs.Simplify.Orderly
Layer: Proofs
Purpose: One pass for every node, and one more, are enough. What a pass has led to is orderly: no rule can
  merely rearrange it, so the next pass makes it smaller or finds nothing. A rule could leave something
  that can be rearranged only where it puts a minus sign before a number. But there numbers are folded
  first, as long as the numbers that a sign leads to are finite.
Main exports: FoldsSigns, Expr.Orderly, Rule.orderly_result?, Expr.orderly_pass, Expr.nodeCount_pass_lt,
  Expr.settle_of_nodeCount
-/
import SymbolicCalculus.Proofs.Expr.Ingredients
import SymbolicCalculus.Proofs.Simplify.NormalForm
import SymbolicCalculus.Proofs.Simplify.Size

namespace SymbolicCalculus

/-- Each way to turn the sign of such a number around leads to a finite one. -/
structure FoldsSigns {α : Type} [Scalar α] (Number : α → Prop) : Prop where
  neg : ∀ value, Number value → Scalar.isFinite (-value) = true
  zero_sub : ∀ zero value, (zero == Scalar.ofNat 0) = true → Number value →
    Scalar.isFinite (zero - value) = true
  minusOne_mul : ∀ factor value, (factor == -Scalar.ofNat 1) = true → Number value →
    Scalar.isFinite (factor * value) = true

variable {α : Type} [Scalar α]

namespace Expr

/-! ### Orderly expressions -/

mutual

/-- No rule can merely rearrange a node of the expression, and no minus sign stands before a number. -/
def Orderly : Expr α → Prop
  | number _ | symbol _ => True
  | neg operand => operand.isLiteral = false ∧ operand.Orderly
  | apply _ operand => operand.Orderly
  | binary op left right => ¬ (binary op left right).Rearrangeable ∧ left.Orderly ∧ right.Orderly
  | call _ arguments => OrderlyAll arguments

/-- All expressions of a row are orderly. -/
def OrderlyAll : List (Expr α) → Prop
  | [] => True
  | first :: others => first.Orderly ∧ OrderlyAll others

end

theorem orderlyAll_of_mem : ∀ {es : List (Expr α)}, (∀ e ∈ es, e.Orderly) → OrderlyAll es
  | [], _ => trivial
  | first :: _, each =>
      ⟨each first List.mem_cons_self,
        orderlyAll_of_mem fun e mem => each e (List.mem_cons_of_mem first mem)⟩

theorem orderly_operands {op : BinaryOp} {left right : Expr α}
    (orderly : ∀ operand ∈ (binary op left right).operands, operand.Orderly) :
    left.Orderly ∧ right.Orderly :=
  ⟨orderly left List.mem_cons_self, orderly right (List.mem_cons_of_mem left List.mem_cons_self)⟩

theorem orderly_operand {operand : Expr α} (orderly : ∀ e ∈ (neg operand).operands, e.Orderly) :
    operand.Orderly := orderly operand List.mem_cons_self

/-- A product with a number in front is left as it is. -/
theorem orderly_number_mul (value : α) {term : Expr α} (orderly : term.Orderly) :
    (number value * term).Orderly :=
  ⟨fun rearranged => Bool.noConfusion rearranged.1, trivial, orderly⟩

/-- A sum or a difference is left as it is if its right operand is no number below zero. -/
theorem not_rearrangeable {op : BinaryOp} {left right : Expr α} (other : op ≠ .mul)
    (above : ∀ value, right = number value → Scalar.belowZero value = false) :
    ¬ (binary op left right).Rearrangeable := by
  intro rearranged
  cases op with
  | mul => exact other rfl
  | div | pow => exact rearranged
  | add | sub =>
    cases right with
    | number value => exact Bool.false_ne_true ((above value rfl).symm.trans rearranged)
    | symbol | neg | apply | binary | call => exact rearranged

/-- If no rule fits at a node, it cannot be rearranged. -/
theorem not_rearrangeable_of_no_fit {op : BinaryOp} {left right : Expr α}
    (fits : ∀ rule : Rule, rule.result? (binary op left right) = none) :
    ¬ (binary op left right).Rearrangeable := by
  intro rearranged
  cases op with
  | div | pow => exact rearranged
  | mul =>
    have literal := isLiteral_left (fits .constantFirst) rearranged.2
    exact Bool.false_ne_true (rearranged.1.symm.trans literal)
  | add =>
    have notNegative := not_isNegative (Option.map_eq_none_iff.1 (fits .addNegative))
    cases right with
    | number value => exact notNegative (.inr ⟨value, rfl, rearranged⟩)
    | symbol | neg | apply | binary | call => exact rearranged
  | sub =>
    have notNegative := not_isNegative (Option.map_eq_none_iff.1 (fits .subtractNegative))
    cases right with
    | number value => exact notNegative (.inr ⟨value, rfl, rearranged⟩)
    | symbol | neg | apply | binary | call => exact rearranged

end Expr

namespace Rule

open SymbolicCalculus.Expr

variable {Number : α → Prop} {Name : String → Prop} {e result : Expr α}

/-! ### Rules -/

theorem finite?_of_isFinite {value : α} (finite : Scalar.isFinite value = true) :
    finite? value = some (computed value) := if_pos finite

theorem orderly_scaled? {a b : α} (scaled : scaled? a b e = some result) (orderly : e.Orderly) :
    result.Orderly := by
  rcases eq_of_scaled? scaled with rfl | ⟨-, rfl⟩
  · exact orderly
  · exact orderly_number_mul _ orderly

/-- The negative of a number below zero is a number that need not be rearranged. -/
theorem not_rearrangeable_computed_neg [FlipsSign α] {op : BinaryOp} {a : Expr α} {value : α}
    (other : op ≠ .mul) (below : Scalar.belowZero value = true) :
    ¬ (binary op a (computed (-value))).Rearrangeable := by
  refine not_rearrangeable other ?_
  rintro _ ⟨⟩
  exact FlipsSign.not_belowZero value below

/-- What a minus sign stands before is no number, so it need not be rearranged. -/
theorem not_rearrangeable_negated {op : BinaryOp} {a b : Expr α} (other : op ≠ .mul)
    (orderly : (neg b).Orderly) : ¬ (binary op a b).Rearrangeable := by
  refine not_rearrangeable other ?_
  rintro value rfl
  cases orderly.1

/-- A rule after the first is only taken if there is nothing to fold. -/
theorem fold?_of_appliesFirst {rule : Rule} (first : rule.AppliesFirst e result)
    (other : rule ≠ foldConstants) : fold? e = none := by
  obtain ⟨-, before, after, order, earlier⟩ := first
  cases before with
  | nil => exact absurd (List.cons.inj order).1.symm other
  | cons rule' before =>
    have same : foldConstants = rule' := (List.cons.inj order).1
    rw [← same] at earlier
    exact earlier foldConstants List.mem_cons_self

section Signs

variable (signs : FoldsSigns Number)
include signs

/-- Where zero is subtracted from and nothing can be folded, the other operand is no number. -/
theorem isLiteral_of_zero_sub {a b : Expr α} (made : (binary .sub a b).MadeOf Number Name)
    (zero : a.isNat 0 = true) (unfolded : fold? (binary .sub a b) = none) : b.isLiteral = false := by
  cases b with
  | symbol | neg | apply | binary | call => rfl
  | number value =>
    cases a with
    | symbol | neg | apply | binary | call => cases zero
    | number zero' =>
      have finite := signs.zero_sub zero' value zero (madeOf_number.1 (madeOf_binary.1 made).2)
      rw [fold?, BinaryOp.apply, finite?_of_isFinite finite] at unfolded
      cases unfolded

theorem isLiteral_of_minusOne_mul {a b : Expr α} (made : (binary .mul a b).MadeOf Number Name)
    (minusOne : a.isNumber (-Scalar.ofNat 1) = true) (unfolded : fold? (binary .mul a b) = none) :
    b.isLiteral = false := by
  cases b with
  | symbol | neg | apply | binary | call => rfl
  | number value =>
    cases a with
    | symbol | neg | apply | binary | call => cases minusOne
    | number factor =>
      have finite := signs.minusOne_mul factor value minusOne (madeOf_number.1 (madeOf_binary.1 made).2)
      rw [fold?, BinaryOp.apply, finite?_of_isFinite finite] at unfolded
      cases unfolded

/-- The first rule that applies to an operation with orderly operands makes something orderly of it. -/
theorem orderly_result? [FlipsSign α] {rule : Rule} (first : rule.AppliesFirst e result)
    (made : e.MadeOf Number Name) (orderly : ∀ operand ∈ e.operands, operand.Orderly) :
    result.Orderly := by
  have unfolded := fold?_of_appliesFirst first
  cases firing_of_result? first.1 with
  | foldOperation | foldMinus | foldFunction | subtractSelf | multiplyZero | divideZero | divideSelf
  | powerZero | onePower => trivial
  | addZero | subtractZero | multiplyOne | divideOne | powerOne => exact (orderly_operands orderly).1
  | zeroAdd | oneMultiply => exact (orderly_operands orderly).2
  | subtractFromZero zero =>
    exact ⟨isLiteral_of_zero_sub signs made zero (unfolded (by decide)), (orderly_operands orderly).2⟩
  | multiplyNegativeOne minusOne =>
    exact ⟨isLiteral_of_minusOne_mul signs made minusOne (unfolded (by decide)),
      (orderly_operands orderly).2⟩
  | addNegated | subtractNegated =>
    obtain ⟨left, right⟩ := orderly_operands orderly
    exact ⟨not_rearrangeable_negated (by decide) right, left, right.2⟩
  | addBelowZero below | subtractBelowZero below =>
    exact ⟨not_rearrangeable_computed_neg (by decide) below, (orderly_operands orderly).1, trivial⟩
  | constantFirst => exact orderly_number_mul _ (orderly_operands orderly).1
  | combineConstantFactors =>
    obtain ⟨-, -, -, inner⟩ := orderly_operands orderly
    exact orderly_number_mul _ inner
  | divideConstantFactor scaled =>
    obtain ⟨⟨-, -, inner⟩, -⟩ := orderly_operands orderly
    exact orderly_scaled? scaled inner
  | multiplyFraction scaled =>
    obtain ⟨-, -, inner, -⟩ := orderly_operands orderly
    exact orderly_scaled? scaled inner
  | powerOfPower =>
    obtain ⟨⟨-, base, -⟩, -⟩ := orderly_operands orderly
    exact ⟨id, base, trivial⟩
  | doubleNegation => exact (orderly_operand orderly).2
  | negateConstantFactor => exact orderly_number_mul _ (orderly_operand orderly).2.2

end Signs

end Rule

namespace Expr

/-! ### Passes lead to order -/

section Signs

variable {Number : α → Prop} {Name : String → Prop} (signs : FoldsSigns Number)
include signs

/-- Where no rule fits at a node with orderly operands, it is orderly. -/
theorem orderly_of_no_fit {e : Expr α} (fits : ∀ rule : Rule, rule.result? e = none)
    (made : e.MadeOf Number Name) (orderly : ∀ operand ∈ e.operands, operand.Orderly) : e.Orderly := by
  cases e with
  | number value => trivial
  | symbol name => trivial
  | apply function operand => exact orderly operand List.mem_cons_self
  | binary op left right => exact ⟨not_rearrangeable_of_no_fit fits, orderly_operands orderly⟩
  | call name arguments => exact orderlyAll_of_mem orderly
  | neg operand =>
    refine ⟨?_, orderly_operand orderly⟩
    cases operand with
    | symbol | neg | apply | binary | call => rfl
    | number value =>
      have unfolded : Rule.fold? (neg (number value)) = none := fits .foldConstants
      have finite := signs.neg value (madeOf_number.1 (madeOf_neg.1 made))
      rw [Rule.fold?, Rule.finite?_of_isFinite finite] at unfolded
      cases unfolded

theorem orderly_finish [FlipsSign α] {e : Expr α} (applied : List Rule) (made : e.MadeOf Number Name)
    (orderly : ∀ operand ∈ e.operands, operand.Orderly) : (e.finish applied).1.Orderly := by
  unfold finish
  split
  · next rule result first =>
    exact Rule.orderly_result? signs (appliesFirst_of_firstRule? first) made orderly
  · next none_ => exact orderly_of_no_fit signs (result?_of_firstRule? none_) made orderly

/-- What a pass leads to is orderly. By induction on the expression: each node is looked at with its
    operands already in order. -/
theorem orderly_pass [FlipsSign α] (keeps : Rule.Keeps Number) {e : Expr α}
    (made : e.MadeOf Number Name) : e.pass.1.Orderly := by
  induction made with
  | @number value fits =>
    have leaf : (number value).MadeOf Number Name := .number fits
    exact orderly_finish signs _ leaf (List.forall_mem_nil _)
  | symbol fits => exact orderly_finish signs _ (.symbol fits) (List.forall_mem_nil _)
  | neg inner ih =>
    exact orderly_finish signs _ (.neg (madeOf_pass keeps inner)) (List.forall_mem_singleton.2 ih)
  | apply inner ih =>
    exact orderly_finish signs _ (.apply (madeOf_pass keeps inner)) (List.forall_mem_singleton.2 ih)
  | binary l r first second =>
    exact orderly_finish signs _ (.binary (madeOf_pass keeps l) (madeOf_pass keeps r))
      (List.forall_mem_cons.2 ⟨first, List.forall_mem_singleton.2 second⟩)
  | call operation inner fits ih =>
    exact orderly_finish signs _ (.call operation (madeOf_pass keeps inner) fits)
      (List.forall_mem_cons.2 ⟨ih, List.forall_mem_singleton.2 trivial⟩)

end Signs

/-! ### Passes over orderly expressions -/

/-- The rule at a node that is not rearranged makes it smaller, and so does any rule below it. -/
theorem nodeCount_finish_lt {e node : Expr α} {applied : List Rule} (still : applied = [] → node = e)
    (smaller : applied ≠ [] → node.nodeCount < e.nodeCount) (orderly : ¬ e.Rearrangeable)
    (changed : (node.finish applied).2 ≠ []) : (node.finish applied).1.nodeCount < e.nodeCount := by
  by_cases none_ : applied = []
  · rw [still none_] at changed ⊢
    unfold finish at changed ⊢
    split at changed
    · next rule result first =>
      rcases Rule.nodeCount_result? (appliesFirst_of_firstRule? first).1 with fewer | ⟨-, rearranged⟩
      · exact fewer
      · exact absurd rearranged orderly
    · exact absurd none_ changed
  · exact Nat.lt_of_le_of_lt (nodeCount_finish node applied) (smaller none_)

mutual

/-- A pass that changes an orderly expression makes it smaller. -/
theorem nodeCount_pass_lt : ∀ {e : Expr α}, e.Orderly → e.pass.2 ≠ [] →
    e.pass.1.nodeCount < e.nodeCount
  | number value, _, changed => absurd rfl changed
  | symbol name, _, changed => absurd rfl changed
  | neg operand, orderly, changed => by
      refine nodeCount_finish_lt (fun none_ => ?_) (fun some_ => ?_) id changed
      · rw [(atRest_of_pass none_).1]
      · exact Nat.succ_lt_succ (nodeCount_pass_lt orderly.2 some_)
  | apply function operand, orderly, changed => by
      refine nodeCount_finish_lt (fun none_ => ?_) (fun some_ => ?_) id changed
      · rw [(atRest_of_pass none_).1]
      · exact Nat.succ_lt_succ (nodeCount_pass_lt (e := operand) orderly some_)
  | binary op left right, orderly, changed => by
      obtain ⟨stays, orderlyLeft, orderlyRight⟩ := orderly
      refine nodeCount_finish_lt (fun none_ => ?_) (fun some_ => ?_) stays changed
      · obtain ⟨first, second⟩ := List.append_eq_nil_iff.1 none_
        rw [(atRest_of_pass first).1, (atRest_of_pass second).1]
      · have l := nodeCount_pass left
        have r := nodeCount_pass right
        rw [nodeCount, nodeCount]
        by_cases first : left.pass.2 = []
        · have second : right.pass.2 ≠ [] := fun none_ => some_ (by rw [first, none_]; rfl)
          have fewer := nodeCount_pass_lt orderlyRight second
          omega
        · have fewer := nodeCount_pass_lt orderlyLeft first
          omega
  | call name arguments, orderly, changed => by
      refine nodeCount_finish_lt (fun none_ => ?_) (fun some_ => ?_) id changed
      · rw [(atRest_of_passAll none_).1]
      · exact Nat.succ_lt_succ (nodeCount_passAll_lt orderly some_)

theorem nodeCount_passAll_lt : ∀ {es : List (Expr α)}, OrderlyAll es → (passAll es).2 ≠ [] →
    nodeCountOfAll (passAll es).1 < nodeCountOfAll es
  | [], _, changed => absurd rfl changed
  | first :: others, orderly, changed => by
      have head := nodeCount_pass first
      have tail := nodeCountOfAll_passAll others
      rw [passAll, nodeCountOfAll, nodeCountOfAll]
      by_cases front : first.pass.2 = []
      · have back : (passAll others).2 ≠ [] := fun none_ => changed (by rw [passAll, front, none_]; rfl)
        have fewer := nodeCount_passAll_lt orderly.2 back
        omega
      · have fewer := nodeCount_pass_lt orderly.1 front
        omega

end

/-! ### Enough passes -/

section Signs

variable [FlipsSign α] {Number : α → Prop} {Name : String → Prop} (signs : FoldsSigns Number)
  (keeps : Rule.Keeps Number)
include signs keeps

/-- An orderly expression comes to rest with a pass for every node. -/
theorem settle_of_orderly {passes : Nat} {e : Expr α} {steps : List Rule} (made : e.MadeOf Number Name)
    (orderly : e.Orderly) (enough : e.nodeCount ≤ passes) :
    ∃ simplified, e.settle passes steps = .ok simplified := by
  induction passes generalizing e steps with
  | zero =>
    have one := nodeCount_pos e
    omega
  | succ passes ih =>
    rw [settle]
    split
    · exact ⟨_, rfl⟩
    · next changed =>
      rw [List.isEmpty_iff] at changed
      have fewer := nodeCount_pass_lt orderly changed
      exact ih (madeOf_pass keeps made) (orderly_pass signs keeps made) (by omega)

/-- Any expression comes to rest with one pass more. -/
theorem settle_of_nodeCount {limit : Nat} {e : Expr α} (made : e.MadeOf Number Name)
    (enough : e.nodeCount < limit) : ∃ simplified, e.settle limit [] = .ok simplified := by
  obtain ⟨passes, rfl⟩ : ∃ passes, limit = passes + 1 := ⟨limit - 1, by omega⟩
  have notLarger := nodeCount_pass e
  rw [settle]
  split
  · exact ⟨_, rfl⟩
  · exact settle_of_orderly signs keeps (madeOf_pass keeps made) (orderly_pass signs keeps made) (by omega)

end Signs

end Expr

end SymbolicCalculus
