/-
Module: SymbolicCalculus.Proofs.Calculus.Failing
Layer: Proofs
Purpose: How the calculus fails on expressions without calls. A derivative fails only at a function that is
  not in the table. Integration fails at an expression that no rule fits, at an operand, or at the power that
  stands for one over a power; and wherever a simplification has not come to rest. These are the steps of
  which every failure is made, and an induction over them is all that has to be known of failures.
Main exports: FailsFor, Expr.unsupported_derivative, Expr.FailsBy, Expr.failsBy_antiderivative,
  Expr.failing_induction
-/
import SymbolicCalculus.Proofs.Calculus.Derivative
import SymbolicCalculus.Proofs.Calculus.Recursion

namespace SymbolicCalculus

/-! ### Reasons -/

/-- Whenever the computation fails, it does so for one of the reasons. -/
def FailsFor {ε β : Type} (reasons : ε → Prop) (outcome : Except ε β) : Prop :=
  ∀ cause, outcome = .error cause → reasons cause

section Reasons

variable {ε β γ : Type} {reasons : ε → Prop} {outcome : Except ε β}

theorem failsFor_ok (value : β) : FailsFor reasons (.ok value) := nofun

theorem failsFor_error {cause : ε} (reason : reasons cause) :
    FailsFor reasons (.error cause : Except ε β) := by
  rintro _ ⟨⟩
  exact reason

theorem FailsFor.bind {next : β → Except ε γ} (first : FailsFor reasons outcome)
    (second : ∀ value, outcome = .ok value → FailsFor reasons (next value)) :
    FailsFor reasons (outcome.bind next) := by
  cases outcome with
  | error cause => exact failsFor_error (first cause rfl)
  | ok value => exact second value rfl

end Reasons

variable {α : Type} [Scalar α]

/-- A function has no derivative. -/
inductive CalculusCause.Unsupported : CalculusCause α → Prop where
  | of_table {function : Elementary} {u : Expr α} (unknown : function.derivativeAt? u = none) :
      Unsupported (.unsupportedDerivative function.name)

namespace Expr

open CalculusCause (Unsupported)

/-! ### Derivatives -/

/-- The derivative of an expression without calls fails only at a function that has none. -/
theorem unsupported_derivative (var : String) :
    ∀ {e : Expr α}, e.CallFree → FailsFor Unsupported (e.derivative var)
  | number value, _ => by
      rw [derivative_number]
      exact failsFor_ok _
  | symbol name, _ => by
      rw [derivative_symbol]
      split
      · exact failsFor_ok _
      · exact failsFor_ok _
  | neg u, calls => by
      have inner : FailsFor Unsupported (u.derivative var) := unsupported_derivative var calls
      rw [derivative_neg]
      exact inner.bind fun _ _ => failsFor_ok _
  | apply function u, calls => by
      have inner : FailsFor Unsupported (u.derivative var) := unsupported_derivative var calls
      rw [derivative_apply]
      split
      · next unknown => exact failsFor_error (.of_table unknown)
      · exact inner.bind fun _ _ => failsFor_ok _
  | binary op u v, calls => by
      obtain ⟨callsLeft, callsRight⟩ := calls.of_binary
      have left := unsupported_derivative var callsLeft
      have right := unsupported_derivative var callsRight
      cases op with
      | add =>
        rw [derivative_add]
        exact left.bind fun _ _ => right.bind fun _ _ => failsFor_ok _
      | sub =>
        rw [derivative_sub]
        exact left.bind fun _ _ => right.bind fun _ _ => failsFor_ok _
      | mul =>
        rw [derivative_mul]
        exact left.bind fun _ _ => right.bind fun _ _ => failsFor_ok _
      | div =>
        rw [derivative_div]
        split
        · exact left.bind fun _ _ => right.bind fun _ _ => failsFor_ok _
        · exact left.bind fun _ _ => failsFor_ok _
      | pow =>
        rw [derivative_pow]
        split
        · exact left.bind fun _ _ => failsFor_ok _
        · split
          · exact right.bind fun _ _ => failsFor_ok _
          · exact left.bind fun _ _ => right.bind fun _ _ => failsFor_ok _
  | call name arguments, calls => nomatch calls

variable {var : String} {e u v : Expr α} {cause : CalculusCause α}

/-- Whatever goes wrong with a derivative, the slope is only not found out; but a simplification that does
    not come to rest ends everything. -/
theorem passLimit_of_slope? (calls : u.CallFree) (failed : u.slope? var = .error cause) :
    ∃ (stuck : Expr α) (limit : PassLimit α), stuck.simplify = .error limit ∧
      cause = .passLimit limit := by
  rw [slope?_eq] at failed
  split at failed
  · cases failed
  · split at failed
    · next limit derived => cases unsupported_derivative var calls _ derived
    · cases failed
    · next du derived =>
      split at failed
      · next limit unsettled =>
        cases failed
        exact ⟨du, limit, unsettled, rfl⟩
      · cases failed

/-! ### One step of a failure -/

/-- The ways in which integration of an expression without calls fails. -/
inductive FailsBy (var : String) (e : Expr α) : CalculusCause α → Prop where
  /-- No rule fits the expression itself. -/
  | noRule (depends : e.dependsOn var = true) : FailsBy var e (.nonIntegrable e)
  /-- An operand that has to be integrated is not. -/
  | operand {part : Expr α} {cause : CalculusCause α} (inside : part ∈ e.operands)
      (failed : part.antiderivative var = .error cause) : FailsBy var e cause
  /-- One over a power is integrated as another power, and that is not. -/
  | reciprocal {numerator base exponent : Expr α} {cause : CalculusCause α}
      (quotient : e = numerator / base ^ exponent)
      (failed : (base ^ exponent.negatedExponent).antiderivative var = .error cause) :
      FailsBy var e cause
  /-- A simplification on the way has not come to rest. -/
  | passLimit {stuck : Expr α} {limit : PassLimit α} (unsettled : stuck.simplify = .error limit) :
      FailsBy var e (.passLimit limit)

/-- What is integrated by the slope of a linear part fails if the part is not linear. -/
theorem failsBy_overSlope {found : α → Expr α} (calls : u.CallFree) (depends : e.dependsOn var = true) :
    FailsFor (FailsBy var e) (do
      match ← u.slope? var with
      | none => .error (.nonIntegrable e)
      | some slope => return found slope) := by
  refine FailsFor.bind (fun cause failed => ?_) fun slope _ => ?_
  · obtain ⟨stuck, limit, unsettled, rfl⟩ := passLimit_of_slope? calls failed
    exact .passLimit unsettled
  · cases slope with
    | none => exact failsFor_error (.noRule depends)
    | some slope => exact failsFor_ok _

theorem failsBy_operand {part : Expr α} (inside : part ∈ e.operands) :
    FailsFor (FailsBy var e) (part.antiderivative var) :=
  fun _ failed => .operand inside failed

theorem failsBy_reciprocal (calls : v.CallFree) (depends : (u / v).dependsOn var = true) :
    FailsFor (FailsBy var (u / v)) (reciprocal u v var) := by
  by_cases power : ∃ base exponent, v = binary .pow base exponent ∧ exponent.dependsOn var = false
  · obtain ⟨base, exponent, rfl, free⟩ := power
    rw [reciprocal_pow u free]
    exact fun cause failed => .reciprocal rfl failed
  · have other (base exponent : Expr α) (same : v = binary .pow base exponent) :
        exponent.dependsOn var = true := by
      by_contra free
      exact power ⟨base, exponent, same, Bool.eq_false_iff.2 free⟩
    rw [reciprocal_of_not_pow u other]
    exact failsBy_overSlope calls depends

/-- Integration of an operation with the variable fails in one of these ways. One case for each of the
    operators, since each has rules of its own. -/
theorem failsBy_antiderivative_binary {op : BinaryOp} (calls : (binary op u v).CallFree)
    (depends : (binary op u v).dependsOn var = true) :
    FailsFor (FailsBy var (binary op u v)) ((binary op u v).antiderivative var) := by
  obtain ⟨callsLeft, callsRight⟩ := calls.of_binary
  have left : FailsFor (FailsBy var (binary op u v)) (u.antiderivative var) :=
    failsBy_operand List.mem_cons_self
  have right : FailsFor (FailsBy var (binary op u v)) (v.antiderivative var) :=
    failsBy_operand (List.mem_cons_of_mem u List.mem_cons_self)
  have noRule : FailsFor (FailsBy var (binary op u v))
      (.error (.nonIntegrable (binary op u v)) : Except (CalculusCause α) (Expr α)) :=
    failsFor_error (.noRule depends)
  cases op with
  | add =>
    rw [antiderivative_add depends]
    exact left.bind fun _ _ => right.bind fun _ _ => failsFor_ok _
  | sub =>
    rw [antiderivative_sub depends]
    exact left.bind fun _ _ => right.bind fun _ _ => failsFor_ok _
  | mul =>
    rw [antiderivative_mul depends]
    split
    · exact right.bind fun _ _ => failsFor_ok _
    · split
      · exact left.bind fun _ _ => failsFor_ok _
      · exact noRule
  | div =>
    rw [antiderivative_div depends]
    split
    · exact left.bind fun _ _ => failsFor_ok _
    · split
      · exact (failsBy_reciprocal callsRight depends).bind fun _ _ => failsFor_ok _
      · exact noRule
  | pow =>
    rw [antiderivative_pow depends]
    split
    · split
      · next limit unsettled => exact failsFor_error (.passLimit unsettled)
      · exact failsBy_overSlope callsLeft depends
    · split
      · exact failsBy_overSlope callsRight depends
      · exact noRule

/-- Integration of an expression without calls fails in no other way. -/
theorem failsBy_antiderivative (calls : e.CallFree) : FailsFor (FailsBy var e) (e.antiderivative var) := by
  cases e with
  | number value =>
    rw [antiderivative_number]
    exact failsFor_ok _
  | symbol name =>
    rw [antiderivative_symbol]
    split
    · exact failsFor_ok _
    · exact failsFor_ok _
  | neg u =>
    rw [antiderivative_neg]
    split
    · exact failsFor_ok _
    · exact (failsBy_operand List.mem_cons_self).bind fun _ _ => failsFor_ok _
  | apply function u =>
    rw [antiderivative_apply]
    split
    · exact failsFor_ok _
    · next depends =>
      rw [Bool.not_eq_true', Bool.not_eq_false] at depends
      split
      · exact failsFor_error (.noRule depends)
      · exact failsBy_overSlope (u := u) calls depends
  | binary op u v =>
    cases depends : (binary op u v).dependsOn var with
    | false =>
      rw [antiderivative_binary_of_not_dependsOn depends]
      exact failsFor_ok _
    | true => exact failsBy_antiderivative_binary calls depends
  | call name arguments => exact absurd calls (Nat.succ_ne_zero _)

/-! ### Whole failures -/

/-- One over a power is integrated as a power with fewer nodes. -/
theorem nodeCount_negatedPower_lt (numerator base exponent : Expr α) :
    (base ^ exponent.negatedExponent).nodeCount < (numerator / base ^ exponent).nodeCount := by
  have one := nodeCount_pos numerator
  have negated := nodeCount_negatedExponent exponent
  simp only [pow_def, div_def, nodeCount]
  omega

theorem CallFree.negatedPower {numerator base exponent : Expr α}
    (calls : (numerator / base ^ exponent).CallFree) :
    (base ^ exponent.negatedExponent).CallFree := by
  obtain ⟨callsBase, callsExponent⟩ := calls.of_binary.2.of_binary
  have negated := callDepth_negatedExponent exponent
  exact Nat.max_eq_zero_iff.2 ⟨callsBase, Nat.le_zero.1 (negated.trans callsExponent.le)⟩

/-- What holds of each step of a failure holds of the failure. The induction is on the number of nodes, since
    the power that stands for one over a power is no part of the expression. -/
theorem failing_induction {motive : Expr α → CalculusCause α → Prop}
    (noRule : ∀ {e : Expr α}, e.CallFree → e.dependsOn var = true →
      e.antiderivative var = .error (.nonIntegrable e) → motive e (.nonIntegrable e))
    (operand : ∀ {e part : Expr α} {cause : CalculusCause α}, e.CallFree → part ∈ e.operands →
      motive part cause → motive e cause)
    (reciprocal : ∀ {numerator base exponent : Expr α} {cause : CalculusCause α},
      motive (base ^ exponent.negatedExponent) cause → motive (numerator / base ^ exponent) cause)
    (passLimit : ∀ {e stuck : Expr α} {limit : PassLimit α}, stuck.simplify = .error limit →
      motive e (.passLimit limit))
    (calls : e.CallFree) : FailsFor (motive e) (e.antiderivative var) := by
  intro cause failed
  induction size : e.nodeCount using Nat.strongRecOn generalizing e cause with
  | ind n ih =>
    subst size
    cases failsBy_antiderivative calls cause failed with
    | noRule depends => exact noRule calls depends failed
    | operand inside failedPart =>
      obtain ⟨depth, fewer⟩ := operand_le inside
      exact operand calls inside (ih _ fewer (Nat.le_zero.1 (depth.trans calls.le)) _ failedPart rfl)
    | reciprocal quotient failedPower =>
      subst quotient
      exact reciprocal (ih _ (nodeCount_negatedPower_lt _ _ _) calls.negatedPower _ failedPower rfl)
    | passLimit unsettled => exact passLimit unsettled

end Expr

end SymbolicCalculus
