/-
Module: SymbolicCalculus.Proofs.Simplify.Size
Layer: Proofs
Purpose: Simplification never makes an expression larger. Of the rules only three leave as many nodes as
  there were: one puts the number of a product to the front, two turn a sum or a difference with a number
  below zero into the other. All others take at least one node away. Nodes are counted as the walk over the
  tree counts them.
Main exports: Expr.Rearrangeable, Rule.nodeCount_result?, Expr.nodeCount_pass, Expr.nodeCount_settle,
  Expr.simplification_never_grows
-/
import SymbolicCalculus.Proofs.Expr.Traversal
import SymbolicCalculus.Proofs.Simplify.Steps

namespace SymbolicCalculus

variable {α : Type}

namespace Expr

/-! ### Parts of an operation -/

theorem nodeCount_left (op : BinaryOp) (left right : Expr α) :
    left.nodeCount < (binary op left right).nodeCount := by
  rw [nodeCount]
  omega

theorem nodeCount_right (op : BinaryOp) (left right : Expr α) :
    right.nodeCount < (binary op left right).nodeCount := by
  rw [nodeCount]
  omega

/-- A minus sign is one node, an operation with another operand is two. -/
theorem nodeCount_neg_right (op : BinaryOp) (left right : Expr α) :
    (neg right).nodeCount < (binary op left right).nodeCount := by
  have other := nodeCount_pos left
  rw [nodeCount, nodeCount]
  omega

theorem nodeCount_ofNat [Scalar α] (n : Nat) (op : BinaryOp) (left right : Expr α) :
    (ofNat n : Expr α).nodeCount < (binary op left right).nodeCount := by
  have other := nodeCount_pos left
  rw [ofNat, nodeCount, nodeCount]
  omega

end Expr

variable [Scalar α] {e result : Expr α}

/-! ### Rules -/

/-- A rule may put the operation into another form that is no smaller: its right operand is a number that
    a product has nowhere else, or one below zero in a sum or a difference. -/
def Expr.Rearrangeable : Expr α → Prop
  | .binary .mul left right => left.isLiteral = false ∧ right.isLiteral = true
  | .binary .add _ (.number value) => Scalar.belowZero value = true
  | .binary .sub _ (.number value) => Scalar.belowZero value = true
  | _ => False

namespace Rule

open SymbolicCalculus.Expr

/-- A product with a computed number in front has two nodes more than the other factor. -/
theorem nodeCount_computed_mul (value : α) (term : Expr α) :
    (binary .mul (computed value) term).nodeCount = term.nodeCount + 2 := by
  rw [computed, nodeCount, nodeCount]
  omega

theorem nodeCount_scaled? {a b : α} (scaled : scaled? a b e = some result) :
    result.nodeCount ≤ e.nodeCount + 2 := by
  rcases eq_of_scaled? scaled with rfl | ⟨-, rfl⟩
  · exact Nat.le_add_right _ 2
  · exact Nat.le_of_eq (nodeCount_computed_mul _ e)

/-- A rule takes at least one node away, or it rearranges an operation and leaves as many as there were. -/
theorem nodeCount_result? {rule : Rule} (fires : rule.result? e = some result) :
    result.nodeCount < e.nodeCount ∨ result.nodeCount = e.nodeCount ∧ e.Rearrangeable := by
  cases firing_of_result? fires with
  | foldOperation | foldMinus | foldFunction | addNegated | subtractNegated | powerOfPower
  | doubleNegation =>
    refine .inl ?_
    simp only [computed, nodeCount]
    omega
  | addZero | subtractZero | multiplyOne | divideOne | powerOne => exact .inl (nodeCount_left _ _ _)
  | zeroAdd | oneMultiply => exact .inl (nodeCount_right _ _ _)
  | subtractFromZero | multiplyNegativeOne => exact .inl (nodeCount_neg_right _ _ _)
  | subtractSelf | multiplyZero | divideZero | divideSelf | powerZero | onePower =>
    exact .inl (nodeCount_ofNat _ _ _ _)
  | addBelowZero below | subtractBelowZero below => exact .inr ⟨rfl, below⟩
  | constantFirst other =>
    refine .inr ⟨?_, isLiteral_of_ne_number other, rfl⟩
    simp only [nodeCount]
    omega
  | combineConstantFactors | negateConstantFactor =>
    refine .inl ?_
    rw [nodeCount_computed_mul]
    simp only [nodeCount]
    omega
  | divideConstantFactor scaled | multiplyFraction scaled =>
    have few := nodeCount_scaled? scaled
    refine .inl ?_
    simp only [nodeCount]
    omega

/-- No rule makes an expression larger. -/
theorem nodeCount_le_of_result? {rule : Rule} (fires : rule.result? e = some result) :
    result.nodeCount ≤ e.nodeCount := by
  rcases nodeCount_result? fires with smaller | ⟨same, -⟩
  · exact Nat.le_of_lt smaller
  · exact Nat.le_of_eq same

end Rule

namespace Expr

/-! ### Passes -/

theorem nodeCount_finish (e : Expr α) (applied : List Rule) :
    (e.finish applied).1.nodeCount ≤ e.nodeCount := by
  unfold finish
  split
  · next rule result first => exact Rule.nodeCount_le_of_result? (appliesFirst_of_firstRule? first).1
  · exact Nat.le_refl _

mutual

/-- A pass makes nothing larger, since a node is never larger after its operands were. -/
theorem nodeCount_pass : ∀ e : Expr α, e.pass.1.nodeCount ≤ e.nodeCount
  | number _ => nodeCount_finish _ []
  | symbol _ => nodeCount_finish _ []
  | neg operand => by
      have inner := nodeCount_pass operand
      have outer := nodeCount_finish (neg operand.pass.1) operand.pass.2
      simp only [pass, nodeCount] at outer ⊢
      omega
  | apply function operand => by
      have inner := nodeCount_pass operand
      have outer := nodeCount_finish (apply function operand.pass.1) operand.pass.2
      simp only [pass, nodeCount] at outer ⊢
      omega
  | binary op left right => by
      have l := nodeCount_pass left
      have r := nodeCount_pass right
      have outer := nodeCount_finish (binary op left.pass.1 right.pass.1)
        (left.pass.2 ++ right.pass.2)
      simp only [pass, nodeCount] at outer ⊢
      omega
  | call name arguments => by
      have inner := nodeCountOfAll_passAll arguments
      have outer := nodeCount_finish (call name (passAll arguments).1) (passAll arguments).2
      simp only [pass, nodeCount] at outer ⊢
      omega

theorem nodeCountOfAll_passAll : ∀ es : List (Expr α),
    nodeCountOfAll (passAll es).1 ≤ nodeCountOfAll es
  | [] => Nat.le_refl 0
  | first :: others => by
      have head := nodeCount_pass first
      have tail := nodeCountOfAll_passAll others
      simp only [passAll, nodeCountOfAll]
      omega

end

/-! ### Whole simplifications -/

theorem nodeCount_settle {passes : Nat} {steps : List Rule} {simplified : Simplified α}
    (settled : e.settle passes steps = .ok simplified) :
    simplified.result.nodeCount ≤ e.nodeCount := by
  induction passes generalizing e steps with
  | zero => cases settled
  | succ passes ih =>
    rw [settle] at settled
    split at settled
    · cases settled
      exact Nat.le_refl _
    · exact Nat.le_trans (ih settled) (nodeCount_pass e)

/-- Neither a rule nor a whole simplification makes an expression larger: the result has at most as many
    nodes, counted by a walk over both trees. It does not matter how many passes are allowed, nor who
    listens. -/
theorem simplification_never_grows {σ : Type} [StepCollector σ] :
    (∀ (rule : Rule) (e result : Expr α), rule.result? e = some result →
        result.traverse.length ≤ e.traverse.length) ∧
      (∀ e result : Expr α, e.simplify = .ok result →
        result.traverse.length ≤ e.traverse.length) ∧
      ∀ (limit : Nat) (e result : Expr α) (told told' : σ),
        e.simplifyReporting limit told = .ok (result, told') →
          result.traverse.length ≤ e.traverse.length := by
  simp only [length_traverse]
  refine ⟨fun rule e result fires => Rule.nodeCount_le_of_result? fires, ?_, ?_⟩
  · intro e result done
    obtain ⟨simplified, settled, rfl⟩ := settle_of_simplify done
    exact nodeCount_settle settled
  · intro limit e result told told' done
    obtain ⟨simplified, settled, rfl⟩ := settle_of_simplifyReporting done
    exact nodeCount_settle settled

/-- Of the seven nodes of `(x + 0) * (y * 2)` five are left; `y * 2` keeps its three when it is turned
    around. -/
theorem simplification_never_grows_product :
    let e : Expr Double := (symbol "x" + ofNat 0) * (symbol "y" * ofNat 2)
    let result : Expr Double := symbol "x" * (ofNat 2 * symbol "y")
    e.simplifyReporting usualPassLimit ([] : List Rule) =
        .ok (result, [.addZero, .constantFirst]) ∧
      Rule.constantFirst.result? (symbol "y" * ofNat 2 : Expr Double) =
        some (ofNat 2 * symbol "y") ∧
      e.simplify = .ok result ∧
      result.traverse.length ≤ e.traverse.length ∧
      (ofNat 2 * symbol "y" : Expr Double).traverse.length ≤
        (symbol "y" * ofNat 2 : Expr Double).traverse.length := by
  intro e result
  have done : e.simplifyReporting usualPassLimit ([] : List Rule) =
      .ok (result, [.addZero, .constantFirst]) := rfl
  have fires : Rule.constantFirst.result? (symbol "y" * ofNat 2 : Expr Double) =
      some (ofNat 2 * symbol "y") := rfl
  have usual : e.simplify = .ok result := rfl
  obtain ⟨rules, simplified, -⟩ := simplification_never_grows (α := Double) (σ := List Rule)
  exact ⟨done, fires, usual, simplified _ _ usual, rules _ _ _ fires⟩

end Expr

end SymbolicCalculus
