/-
Module: SymbolicCalculus.Proofs.Simplify.Steps
Layer: Proofs
Purpose: The steps of a simplification are a derivation that can be replayed. A pass rebuilds the whole
  tree from the leaves, but it can be read as a sequence of single rewritings, one for each rule that it
  applies and in the same order: what a node becomes is decided after its operands, and a rewriting of an
  operand is one of the node. A collector hears of exactly these rules and makes no difference to the
  result. No derivation leads back to where it started, since every rule takes something off the weight.
Main exports: Rule.AppliesFirst, Expr.Rewrites, Expr.Replay, Expr.replay_pass, Expr.replay_settle,
  Expr.reportPass_eq, Expr.simplifyReporting_eq, Expr.weight_of_same, Expr.steps_replay
-/
import SymbolicCalculus.Proofs.Simplify.Rest
import SymbolicCalculus.Proofs.Success
import SymbolicCalculus.Simplify.Collector

namespace SymbolicCalculus

open StepCollector (push)

variable {α : Type} [Scalar α]

/-! ### One rewriting -/

/-- The rule makes the result of the expression, and no rule before it applies there. -/
def Rule.AppliesFirst (rule : Rule) (e result : Expr α) : Prop :=
  rule.result? e = some result ∧
    ∃ before after, Rule.all = before ++ rule :: after ∧
      ∀ earlier ∈ before, earlier.result? e = none

namespace Expr

theorem appliesFirst_of_firstRule? {rule : Rule} {e result : Expr α}
    (first : e.firstRule? = some (rule, result)) : rule.AppliesFirst e result := by
  obtain ⟨before, tried, after, order, found, others⟩ := List.findSome?_eq_some_iff.1 first
  obtain ⟨made, makes, pair⟩ := Option.map_eq_some_iff.1 found
  cases pair
  exact ⟨makes, before, after, order, fun earlier mem => Option.map_eq_none_iff.1 (others earlier mem)⟩

/-- One subexpression is replaced by what the rule makes of it. The rule is the first that applies to the
    subexpression, and everything else stays as it is. -/
inductive Rewrites (rule : Rule) : Expr α → Expr α → Prop where
  | here {e result : Expr α} (first : rule.AppliesFirst e result) : Rewrites rule e result
  | neg {operand result : Expr α} (inner : Rewrites rule operand result) :
      Rewrites rule (neg operand) (neg result)
  | apply {function : Elementary} {operand result : Expr α} (inner : Rewrites rule operand result) :
      Rewrites rule (apply function operand) (apply function result)
  | left {op : BinaryOp} {operand result right : Expr α} (inner : Rewrites rule operand result) :
      Rewrites rule (binary op operand right) (binary op result right)
  | right {op : BinaryOp} {left operand result : Expr α} (inner : Rewrites rule operand result) :
      Rewrites rule (binary op left operand) (binary op left result)
  | argument {name : String} {before after : List (Expr α)} {operand result : Expr α}
      (inner : Rewrites rule operand result) :
      Rewrites rule (call name (before ++ operand :: after)) (call name (before ++ result :: after))

/-- A chain of rewritings: one for each of the rules, in order. -/
inductive Replay : Expr α → List Rule → Expr α → Prop where
  | done (e : Expr α) : Replay e [] e
  | step {e next last : Expr α} {rule : Rule} {rules : List Rule} (first : Rewrites rule e next)
      (others : Replay next rules last) : Replay e (rule :: rules) last

namespace Replay

theorem append {e middle last : Expr α} {rules others : List Rule} (first : Replay e rules middle)
    (second : Replay middle others last) : Replay e (rules ++ others) last := by
  induction first with
  | done => exact second
  | step rewrites _ ih => exact .step rewrites (ih second)

/-- Where an operand can be rewritten in place, a chain from the operand is one from the whole. -/
theorem inContext (context : Expr α → Expr α)
    (lifts : ∀ {rule : Rule} {e next : Expr α}, Rewrites rule e next →
      Rewrites rule (context e) (context next))
    {e last : Expr α} {rules : List Rule} (chain : Replay e rules last) :
    Replay (context e) rules (context last) := by
  induction chain with
  | done e => exact .done _
  | step rewrites _ ih => exact .step (lifts rewrites) ih

end Replay

/-! ### A pass as a chain -/

/-- The rule at the node itself is the last of the chain. -/
theorem replay_finish {e node : Expr α} {applied : List Rule} (chain : Replay e applied node) :
    Replay e (node.finish applied).2 (node.finish applied).1 := by
  unfold finish
  split
  · next rule result first =>
    exact chain.append (.step (.here (appliesFirst_of_firstRule? first)) (.done _))
  · exact chain

mutual

/-- A pass is a chain of its rules. By recursion on the expression: first the chains of the operands, one
    operand after the other, then the rule at the node. -/
theorem replay_pass : ∀ e : Expr α, Replay e e.pass.2 e.pass.1
  | number value => replay_finish (.done _)
  | symbol name => replay_finish (.done _)
  | neg operand => replay_finish ((replay_pass operand).inContext neg .neg)
  | apply function operand => replay_finish ((replay_pass operand).inContext (apply function) .apply)
  | binary op left right => by
      have first : Replay (binary op left right) left.pass.2 (binary op left.pass.1 right) :=
        (replay_pass left).inContext (binary op · right) .left
      have second : Replay (binary op left.pass.1 right) right.pass.2
          (binary op left.pass.1 right.pass.1) :=
        (replay_pass right).inContext (binary op left.pass.1) .right
      exact replay_finish (first.append second)
  | call name arguments => replay_finish (replay_passAll name [] arguments)

/-- The same for the arguments of a call, of which some have been dealt with already. -/
theorem replay_passAll (name : String) (before : List (Expr α)) : ∀ es : List (Expr α),
    Replay (call name (before ++ es)) (passAll es).2 (call name (before ++ (passAll es).1))
  | [] => .done _
  | first :: others => by
      have head : Replay (call name (before ++ first :: others)) first.pass.2
          (call name (before ++ first.pass.1 :: others)) :=
        (replay_pass first).inContext (fun e => call name (before ++ e :: others)) .argument
      have tail := replay_passAll name (before ++ [first.pass.1]) others
      simp only [List.append_assoc, List.singleton_append] at tail
      exact head.append tail

end

/-- Repeated passes are one chain after the other. -/
theorem replay_settle {passes : Nat} {e : Expr α} {steps : List Rule} {simplified : Simplified α}
    (settled : e.settle passes steps = .ok simplified) :
    ∃ rules, simplified.steps = steps ++ rules ∧ Replay e rules simplified.result := by
  induction passes generalizing e steps with
  | zero => cases settled
  | succ passes ih =>
    rw [settle] at settled
    split at settled
    · cases settled
      exact ⟨[], (List.append_nil steps).symm, .done e⟩
    · obtain ⟨rules, taken, chain⟩ := ih settled
      exact ⟨e.pass.2 ++ rules, by rw [taken, List.append_assoc], (replay_pass e).append chain⟩

/-! ### Collectors -/

section Collectors

variable {σ : Type} [StepCollector σ]

theorem reportFirst_eq (rules : List Rule) (e : Expr α) (told : σ) :
    reportFirst rules e told =
      match e.firstOf? rules with
      | some (rule, result) => (some result, push told rule)
      | none => (none, told) := by
  induction rules with
  | nil => rfl
  | cons rule others ih =>
    unfold reportFirst Rule.report firstOf?
    rw [List.findSome?_cons]
    cases rule.result? e with
    | some result => rfl
    | none => exact ih

/-- What a collector hears of a pass, and what the pass answers: nothing if no rule was applied. -/
def reported (passed : Expr α × List Rule) (told : σ) : Option (Expr α) × σ :=
  (if passed.2.isEmpty then none else some passed.1, passed.2.foldl push told)

theorem isEmpty_append (first second : List Rule) :
    (first ++ second).isEmpty = (first.isEmpty && second.isEmpty) := by
  cases first <;> rfl

omit [Scalar α] in
theorem isNone_reported (passed : Expr α × List Rule) (told : σ) :
    (reported passed told).1.isNone = passed.2.isEmpty := by
  unfold reported
  cases passed.2.isEmpty <;> rfl

/-- A pass that answers nothing has left the expression as it is. -/
theorem getD_reported (e : Expr α) (told : σ) : (reported e.pass told).1.getD e = e.pass.1 := by
  unfold reported
  split
  · next still => exact (atRest_of_pass (List.isEmpty_iff.1 still)).1.symm
  · rfl

/-- The node after its operands, if they have been reported and have been put back where no rule was
    applied. -/
theorem reportNode_eq {e node : Expr α} (applied : List Rule) (told : σ)
    (still : applied = [] → node = e) :
    reportNode e (if applied.isEmpty then none else some node) (applied.foldl push told) =
      reported (node.finish applied) told := by
  unfold reportNode finish reported
  rw [firstRule?]
  cases applied with
  | nil =>
    rw [still rfl]
    simp only [List.isEmpty_nil, if_true, List.foldl_nil, reportFirst_eq]
    cases e.firstOf? Rule.all with
    | none => rfl
    | some pair => rfl
  | cons rule rules =>
    simp only [List.isEmpty_cons, Bool.false_eq_true, if_false, reportFirst_eq]
    cases node.firstOf? Rule.all with
    | none => rfl
    | some pair => simp [List.foldl_append]

omit [Scalar α] in
theorem map_reported (passed : Expr α × List Rule) (told : σ) (context : Expr α → Expr α) :
    (reported passed told).1.map context =
      if passed.2.isEmpty then none else some (context passed.1) := by
  unfold reported
  split <;> rfl

mutual

/-- A collector hears of exactly the rules that a pass applies, in order, and the pass answers the same
    expression whoever listens. -/
theorem reportPass_eq : ∀ (e : Expr α) (told : σ), e.reportPass told = reported e.pass told
  | number value, told => reportNode_eq [] told fun _ => rfl
  | symbol name, told => reportNode_eq [] told fun _ => rfl
  | neg operand, told => by
      rw [reportPass, reportPass_eq operand]
      simp only [map_reported]
      refine reportNode_eq _ told fun none => ?_
      rw [(atRest_of_pass none).1]
  | apply function operand, told => by
      rw [reportPass, reportPass_eq operand]
      simp only [map_reported]
      refine reportNode_eq _ told fun none => ?_
      rw [(atRest_of_pass none).1]
  | binary op left right, told => by
      rw [reportPass, reportPass_eq left, reportPass_eq right]
      simp only [isNone_reported, getD_reported, ← isEmpty_append]
      have heard : (reported right.pass (reported left.pass told).2).2 =
          (left.pass.2 ++ right.pass.2).foldl push told := List.foldl_append.symm
      rw [heard]
      refine reportNode_eq _ told fun none => ?_
      obtain ⟨first, second⟩ := List.append_eq_nil_iff.1 none
      rw [(atRest_of_pass first).1, (atRest_of_pass second).1]
  | call name arguments, told => by
      obtain ⟨silent, put, heard⟩ := reportAll_eq arguments told
      rw [reportPass]
      simp only [silent, put, heard]
      refine reportNode_eq _ told fun none => ?_
      rw [(atRest_of_passAll none).1]

theorem reportAll_eq : ∀ (es : List (Expr α)) (told : σ),
    (reportAll es told).1.all Option.isNone = (passAll es).2.isEmpty ∧
      List.zipWith Option.getD (reportAll es told).1 es = (passAll es).1 ∧
      (reportAll es told).2 = (passAll es).2.foldl push told
  | [], told => ⟨rfl, rfl, rfl⟩
  | first :: others, told => by
      obtain ⟨silent, put, heard⟩ := reportAll_eq others (reported first.pass told).2
      rw [reportAll, reportPass_eq first]
      refine ⟨?_, ?_, ?_⟩
      · rw [List.all_cons, isNone_reported, silent, passAll, isEmpty_append]
      · rw [List.zipWith_cons_cons, getD_reported, put, passAll]
      · rw [heard, passAll]
        exact List.foldl_append.symm

end

/-- What a list of steps hears is put behind what it holds. -/
theorem foldl_push_list (steps rules : List Rule) : rules.foldl push steps = steps ++ rules := by
  induction rules generalizing steps with
  | nil => exact (List.append_nil steps).symm
  | cons rule others ih =>
    rw [List.foldl_cons, ih]
    exact (List.append_cons steps rule others).symm

/-- Repeated passes with a collector: it has heard of the steps, and the result is the same. -/
theorem settleReporting_eq (passes : Nat) (e : Expr α) (steps : List Rule) (told : σ) :
    e.settleReporting passes (steps.foldl push told) =
      (e.settle passes steps).map fun simplified =>
        (simplified.result, simplified.steps.foldl push told) := by
  induction passes generalizing e steps with
  | zero => rfl
  | succ passes ih =>
    rw [settleReporting, reportPass_eq, settle]
    unfold reported
    cases still : e.pass.2.isEmpty with
    | true =>
      rw [List.isEmpty_iff.1 still]
      rfl
    | false =>
      simp only [Bool.false_eq_true, if_false, ← List.foldl_append]
      exact ih e.pass.1 (steps ++ e.pass.2)

/-- A collector makes no difference to the result, nor to whether there is one, and in the end it has heard
    of the steps. -/
theorem simplifyReporting_eq (limit : Nat) (e : Expr α) (told : σ) :
    e.simplifyReporting limit told =
      (e.simplifyWithin limit).map fun simplified =>
        (simplified.result, simplified.steps.foldl push told) := by
  have settled := settleReporting_eq limit e [] told
  rw [List.foldl_nil] at settled
  rw [simplifyReporting, simplifyWithin, settled]
  cases e.settle limit [] <;> rfl

end Collectors

/-! ### Where a derivation leads -/

mutual

theorem same_refl : ∀ e : Expr Double, e.same e = true
  | number value => Double.same_refl value
  | symbol name => beq_self_eq_true name
  | neg operand => same_refl operand
  | apply function operand => by
      rw [same, beq_self_eq_true, same_refl operand]
      rfl
  | binary op left right => by
      rw [same, beq_self_eq_true, same_refl left, same_refl right]
      rfl
  | call name arguments => by
      rw [same, beq_self_eq_true, sameAll_refl arguments]
      rfl

theorem sameAll_refl : ∀ es : List (Expr Double), sameAll es es = true
  | [] => rfl
  | first :: others => by
      rw [sameAll, same_refl first, sameAll_refl others]
      rfl

end

mutual

/-- The same trees have the same weight, and both are numbers or none is. -/
theorem weight_of_same : ∀ {a b : Expr Double}, a.same b = true →
    a.weight = b.weight ∧ a.isLiteral = b.isLiteral
  | number a, number b, equal => by
      rw [weight, weight, signWeight, signWeight, Double.belowZero_of_same equal]
      exact ⟨rfl, rfl⟩
  | symbol _, symbol _, _ => ⟨rfl, rfl⟩
  | neg a, neg b, equal => by
      rw [weight, weight, (weight_of_same (a := a) (b := b) equal).1]
      exact ⟨rfl, rfl⟩
  | apply f a, apply g b, equal => by
      rw [weight, weight, (weight_of_same (Bool.and_eq_true_iff.1 equal).2).1]
      exact ⟨rfl, rfl⟩
  | binary f a b, binary g c d, equal => by
      obtain ⟨front, second⟩ := Bool.and_eq_true_iff.1 equal
      obtain ⟨ops, first⟩ := Bool.and_eq_true_iff.1 front
      obtain ⟨left, literalLeft⟩ := weight_of_same first
      obtain ⟨right, literalRight⟩ := weight_of_same second
      rw [weight, weight, orderWeight, orderWeight, beq_iff_eq.1 ops, left, right, literalLeft,
        literalRight]
      exact ⟨rfl, rfl⟩
  | call _ as, call _ bs, equal => by
      rw [weight, weight, weightOfAll_of_sameAll (Bool.and_eq_true_iff.1 equal).2]
      exact ⟨rfl, rfl⟩

theorem weightOfAll_of_sameAll : ∀ {as bs : List (Expr Double)}, sameAll as bs = true →
    weightOfAll as = weightOfAll bs
  | [], [], _ => rfl
  | a :: as, b :: bs, equal => by
      obtain ⟨first, others⟩ := Bool.and_eq_true_iff.1 equal
      rw [weightOfAll, weightOfAll, (weight_of_same first).1, weightOfAll_of_sameAll others]

end

theorem settle_of_simplifyWithin {limit : Nat} {e : Expr α} {simplified : Simplified α}
    (done : e.simplifyWithin limit = .ok simplified) : e.settle limit [] = .ok simplified := by
  unfold simplifyWithin at done
  split at done
  · next found =>
    cases done
    exact found
  · cases done

/-- What simplification answers is the result of passes, whoever has listened. -/
theorem settle_of_simplifyReporting {σ : Type} [StepCollector σ] {limit : Nat} {e result : Expr α}
    {told told' : σ} (done : e.simplifyReporting limit told = .ok (result, told')) :
    ∃ simplified, e.settle limit [] = .ok simplified ∧ simplified.result = result := by
  rw [simplifyReporting_eq] at done
  obtain ⟨simplified, within, heard⟩ := map_eq_ok_iff.1 done
  cases heard
  exact ⟨simplified, settle_of_simplifyWithin within, rfl⟩

/-- Each step takes something off the weight. -/
theorem weight_simplifyWithin [FlipsSign α] {limit : Nat} {e : Expr α} {simplified : Simplified α}
    (done : e.simplifyWithin limit = .ok simplified) :
    simplified.result.weight + simplified.steps.length ≤ e.weight := by
  obtain ⟨simplified', settled, bound⟩ : ∃ simplified' : Simplified α,
      e.settle e.weight [] = .ok simplified' ∧
        simplified'.result.weight + simplified'.steps.length ≤ e.weight + 0 :=
    settle_of_weight (by omega)
  -- two limits that are enough lead to the same
  have same : simplified = simplified' := by
    have first := settle_of_le (settle_of_simplifyWithin done) (Nat.le_max_left limit e.weight)
    have second := settle_of_le settled (Nat.le_max_right limit e.weight)
    rw [first] at second
    cases second
    rfl
  rw [same]
  exact bound

/-- The steps of a simplification over machine numbers are a derivation of its result: there is a chain
    of rewritings from the expression to the result, one for each step, in which the rule of the step is
    the first that applies to the subexpression that is replaced. Without a collector for the steps the
    result is the same. There are no steps exactly if the result is the expression itself. -/
theorem steps_replay {limit : Nat} {e result : Expr Double} {steps : List Rule}
    (done : e.simplifyReporting limit ([] : List Rule) = .ok (result, steps)) :
    e.simplifyReporting limit () = .ok (result, ()) ∧
      e.simplifyWithin limit = .ok ⟨result, steps⟩ ∧
      (limit = usualPassLimit → e.simplify = .ok result) ∧
      Replay e steps result ∧
      (steps = [] ↔ result.same e = true) ∧
      (steps = [] → result = e) := by
  obtain ⟨simplified, within, heard⟩ : ∃ simplified, e.simplifyWithin limit = .ok simplified ∧
      (simplified.result, simplified.steps.foldl push ([] : List Rule)) = (result, steps) := by
    rw [simplifyReporting_eq] at done
    exact map_eq_ok_iff.1 done
  have collected : simplified.steps.foldl push ([] : List Rule) = simplified.steps :=
    foldl_push_list [] simplified.steps
  rw [collected] at heard
  cases heard
  obtain ⟨rules, taken, chain⟩ := replay_settle (settle_of_simplifyWithin within)
  rw [List.nil_append] at taken
  rw [← taken] at chain
  have asItWas : simplified.steps = [] → simplified.result = e := by
    intro none
    rw [none] at chain
    cases chain
    rfl
  refine ⟨?_, within, ?_, chain, ⟨fun none => ?_, fun equal => ?_⟩, asItWas⟩
  · rw [simplifyReporting_eq, within]
    rfl
  · rintro rfl
    rw [simplify, within]
  · rw [asItWas none]
    exact same_refl e
  · have lighter := weight_simplifyWithin within
    rw [(weight_of_same equal).1] at lighter
    exact List.eq_nil_of_length_eq_zero (by omega)

/-- In `(x + 0) * 1` the sum goes first, since it is an operand. -/
theorem steps_replay_product :
    let e : Expr Double := (symbol "x" + ofNat 0) * ofNat 1
    e.simplifyReporting usualPassLimit ([] : List Rule) =
        .ok (symbol "x", [.addZero, .multiplyOne]) ∧
      Replay e [.addZero, .multiplyOne] (symbol "x") := by
  intro e
  have done : e.simplifyReporting usualPassLimit ([] : List Rule) =
      .ok (symbol "x", [.addZero, .multiplyOne]) := rfl
  exact ⟨done, (steps_replay done).2.2.2.1⟩

end Expr

end SymbolicCalculus
