/-
Module: SymbolicCalculus.Proofs.Calculus.CallsLeft
Layer: Proofs
Purpose: The calls that integration leaves. A call that is itself the integrand is carried out first. But
  a factor, a divisor, a base or an argument goes into the result as it stands, and so does an expression
  without the variable; the calls in these parts are never looked at. The calls in an antiderivative are
  exactly those in the parts that were kept so. Where the whole expression is resolved before, there is none.
Main exports: Expr.calls, Expr.kept, Expr.HasCallsOf, Expr.hasCallsOf_antiderivative,
  Expr.calls_left_by_integration, Expr.integration_leaves_a_call
-/
import SymbolicCalculus.Proofs.Calculus.Resolved

namespace SymbolicCalculus.Expr

/-! ### Calls -/

section Calls

variable {α : Type} {c : Expr α}

/-- The calls in an expression, those inside other calls included. -/
def calls (e : Expr α) : List (Expr α) := e.postOrder.filter isCall

@[simp] theorem calls_number (value : α) : (number value).calls = [] := rfl

@[simp] theorem calls_symbol (name : String) : (symbol name : Expr α).calls = [] := rfl

@[simp] theorem calls_neg (operand : Expr α) : (neg operand).calls = operand.calls := by
  simp [calls, postOrder, isCall]

@[simp] theorem calls_apply (function : Elementary) (operand : Expr α) :
    (apply function operand).calls = operand.calls := by
  simp [calls, postOrder, isCall]

@[simp] theorem calls_binary (op : BinaryOp) (left right : Expr α) :
    (binary op left right).calls = left.calls ++ right.calls := by
  simp [calls, postOrder, isCall]

theorem calls_eq_nil_iff {e : Expr α} : e.calls = [] ↔ e.CallFree := by
  rw [callFree_iff, calls, List.filter_eq_nil_iff]
  simp only [Bool.not_eq_true]

/-- The calls in the expression are those in the parts. -/
def HasCallsOf (e : Expr α) (parts : List (Expr α)) : Prop :=
  ∀ c, c ∈ e.calls ↔ ∃ part ∈ parts, c ∈ part.calls

theorem HasCallsOf.timesVariable {e : Expr α} {parts : List (Expr α)} (var : String)
    (inner : e.HasCallsOf parts) : (e * symbol var).HasCallsOf parts := by
  intro c
  rw [mul_def, calls_binary, calls_symbol, List.append_nil]
  exact inner c

theorem hasCallsOf_operands_binary (op : BinaryOp) (u v : Expr α) :
    (binary op u v).HasCallsOf [u, v] := by
  intro c
  simp

/-- The calls of a sum or a difference are those of its operands. -/
theorem HasCallsOf.append {op : BinaryOp} {f g : Expr α} {first second : List (Expr α)}
    (left : f.HasCallsOf first) (right : g.HasCallsOf second) :
    (binary op f g).HasCallsOf (first ++ second) := by
  intro c
  simp only [calls_binary, List.mem_append, left c, right c, or_and_right, exists_or]

/-- The calls of a product or a quotient are those of the part that was kept and those of the other. -/
theorem HasCallsOf.cons {op : BinaryOp} {g : Expr α} {parts : List (Expr α)} (u : Expr α)
    (inner : g.HasCallsOf parts) : (binary op u g).HasCallsOf (u :: parts) := by
  intro c
  simp only [calls_binary, List.mem_append, inner c, List.exists_mem_cons_iff]

theorem HasCallsOf.cons_right {op : BinaryOp} {g : Expr α} {parts : List (Expr α)} (u : Expr α)
    (inner : g.HasCallsOf parts) : (binary op g u).HasCallsOf (u :: parts) := by
  intro c
  simp only [calls_binary, List.mem_append, inner c, List.exists_mem_cons_iff, or_comm]

variable [Scalar α]

@[simp] theorem calls_ofNat (n : Nat) : (ofNat n : Expr α).calls = [] := rfl

@[simp] theorem calls_overSlope (e : Expr α) (slope : α) : (e.overSlope slope).calls = e.calls := by
  unfold overSlope
  split
  · rfl
  · simp [div_def]

/-- A table entry has the calls of its argument. -/
theorem mem_calls_antiderivativeAt? {u outer : Expr α} {function : Elementary}
    (known : function.antiderivativeAt? u = some outer) : c ∈ outer.calls ↔ c ∈ u.calls := by
  cases function <;>
    simp only [Elementary.antiderivativeAt?, Option.some.injEq, reduceCtorEq] at known <;>
    subst known <;>
    simp [neg_def, div_def, mul_def, sub_def, pow_def]

/-- What stands for a number has no calls. -/
theorem calls_of_asNumber? {e : Expr α} {n : α} (known : e.asNumber? = some n) : e.calls = [] := by
  unfold asNumber? at known
  split at known
  · rfl
  · rw [calls_neg, calls_number]
  · cases known

theorem calls_raisedExponent (e : Expr α) : e.raisedExponent.calls = e.calls := by
  unfold raisedExponent
  split
  · next n known => rw [calls_of_asNumber? known, calls_number]
  · simp [add_def]

theorem mem_calls_powerAntiderivative {u w : Expr α} :
    c ∈ (powerAntiderivative u w).calls ↔ c ∈ u.calls ∨ c ∈ w.calls := by
  unfold powerAntiderivative
  split
  · next n known =>
    split
    · simp [calls_of_asNumber? known]
    · simp [div_def, pow_def, calls_raisedExponent]
  · simp [div_def, pow_def, calls_raisedExponent]

end Calls

/-! ### What integration keeps -/

section Kept

variable {α : Type} [Scalar α]

/-- What is kept of a power: the base, and an exponent without the variable after it was simplified. -/
def keptOfPower (var : String) (base exponent : Expr α) : List (Expr α) :=
  if exponent.dependsOn var then [base, exponent]
  else
    match exponent.simplify with
    | .ok simplified => [base, simplified]
    | .error _ => [base]

/-- What is kept of a denominator with the variable. -/
def keptOfDenominator (var : String) : Expr α → List (Expr α)
  | binary .pow base exponent =>
      if exponent.dependsOn var then [base, exponent]
      else keptOfPower var base exponent.negatedExponent
  | denominator => [denominator]

/-- The parts of an expression that integration puts into its result without having looked into them. -/
def kept (var : String) : Expr α → List (Expr α)
  | number _ | symbol _ | call _ _ => []
  | neg operand => if (neg operand).dependsOn var then operand.kept var else [operand]
  | apply _ operand => [operand]
  | binary op left right =>
      if (binary op left right).dependsOn var then
        match op with
        | .add | .sub => left.kept var ++ right.kept var
        | .mul =>
            if left.dependsOn var then right :: left.kept var else left :: right.kept var
        | .div =>
            if right.dependsOn var then left :: right.keptOfDenominator var
            else right :: left.kept var
        | .pow => left.keptOfPower var right
      else [left, right]

end Kept

/-! ### Which calls are left -/

section Left

variable {α : Type} [Scalar α] {var : String} {u v F : Expr α}

theorem hasCallsOf_pow (depends : (binary .pow u v).dependsOn var = true)
    (done : (binary .pow u v).antiderivative var = .ok F) : F.HasCallsOf (u.keptOfPower var v) := by
  intro c
  rw [antiderivative_pow depends] at done
  unfold keptOfPower
  cases dependsRight : v.dependsOn var with
  | false =>
    simp only [dependsRight, Bool.not_false, if_true] at done
    split at done
    · cases done
    · next w simplified =>
      obtain ⟨slope, -, last⟩ := bind_eq_ok_iff.1 done
      cases slope with
      | none => cases last
      | some slope =>
        cases last
        simp [simplified, mem_calls_powerAntiderivative]
  | true =>
    simp only [dependsRight, Bool.not_true, Bool.false_eq_true, if_false] at done
    split at done
    · obtain ⟨slope, -, last⟩ := bind_eq_ok_iff.1 done
      cases slope with
      | none => cases last
      | some slope =>
        cases last
        have whole := hasCallsOf_operands_binary .pow u v c
        rw [calls_overSlope, div_def, calls_binary, calls_apply, List.mem_append, whole, if_pos rfl]
        exact or_iff_left_of_imp fun mem => ⟨u, List.mem_cons_self, mem⟩
    · cases done

theorem hasCallsOf_logarithm {numerator denominator : Expr α}
    (other : ∀ base exponent, denominator = binary .pow base exponent → exponent.dependsOn var = true)
    (done : reciprocal numerator denominator var = .ok F) :
    ∀ c, c ∈ F.calls ↔ c ∈ denominator.calls := by
  intro c
  rw [reciprocal_of_not_pow numerator other] at done
  obtain ⟨slope, -, last⟩ := bind_eq_ok_iff.1 done
  cases slope with
  | none => cases last
  | some slope =>
    cases last
    rw [calls_overSlope, calls_apply]

theorem hasCallsOf_reciprocal {numerator denominator : Expr α}
    (depends : denominator.dependsOn var = true)
    (done : reciprocal numerator denominator var = .ok F) :
    F.HasCallsOf (denominator.keptOfDenominator var) := by
  unfold keptOfDenominator
  split
  · next base exponent =>
    split
    · next dependsExponent =>
      intro c
      have other : ∀ b x, binary .pow base exponent = binary .pow b x → x.dependsOn var = true := by
        rintro _ _ ⟨⟩
        exact dependsExponent
      simp [hasCallsOf_logarithm other done c]
    · next free =>
      rw [reciprocal_pow numerator (Bool.eq_false_iff.2 free)] at done
      refine hasCallsOf_pow ?_ done
      simp only [dependsOn, symbols, List.contains_eq_mem, List.mem_append, decide_eq_true_eq]
        at depends free ⊢
      exact .inl (depends.resolve_right free)
  · next other =>
    intro c
    have notPower : ∀ base exponent, denominator = binary .pow base exponent →
        exponent.dependsOn var = true := fun base exponent same => absurd same (other base exponent)
    simp [hasCallsOf_logarithm notPower done c]

/-- A numerator is kept; if it is left out because it is one, it has no calls. -/
theorem HasCallsOf.underNumerator {g : Expr α} {parts : List (Expr α)} (u : Expr α)
    (inner : g.HasCallsOf parts) : (if u.isNat 1 then g else u * g).HasCallsOf (u :: parts) := by
  split
  · next one =>
    have none_ : u.calls = [] := by
      cases u with
      | number value => rfl
      | symbol | neg | apply | binary | call => cases one
    intro c
    simp only [inner c, List.exists_mem_cons_iff, none_, List.not_mem_nil, false_or]
  · exact inner.cons u

/-- The calls of the antiderivative of an operation, if those of its operands are known. -/
theorem hasCallsOf_antiderivative_binary {op : BinaryOp}
    (left : ∀ {f}, u.antiderivative var = .ok f → f.HasCallsOf (u.kept var))
    (right : ∀ {g}, v.antiderivative var = .ok g → g.HasCallsOf (v.kept var))
    (done : (binary op u v).antiderivative var = .ok F) : F.HasCallsOf ((binary op u v).kept var) := by
  rw [kept.eq_def]
  cases depends : (binary op u v).dependsOn var with
  | false =>
    rw [antiderivative_binary_of_not_dependsOn depends] at done
    cases done
    simp only [depends, Bool.false_eq_true, if_false]
    exact (hasCallsOf_operands_binary op u v).timesVariable var
  | true =>
    simp only [depends, if_true]
    cases op with
    | add | sub =>
      rw [antiderivative_additive (by simp) depends] at done
      obtain ⟨f, integratedLeft, rest⟩ := bind_eq_ok_iff.1 done
      obtain ⟨g, integratedRight, last⟩ := bind_eq_ok_iff.1 rest
      cases last
      exact (left integratedLeft).append (right integratedRight)
    | mul =>
      rw [antiderivative_mul depends] at done
      cases dependsLeft : u.dependsOn var with
      | false =>
        simp only [dependsLeft, Bool.not_false, if_true] at done
        obtain ⟨g, integratedRight, last⟩ := bind_eq_ok_iff.1 done
        cases last
        exact (right integratedRight).cons u
      | true =>
        simp only [dependsLeft, Bool.not_true, Bool.false_eq_true, if_false] at done
        split at done
        · obtain ⟨f, integratedLeft, last⟩ := bind_eq_ok_iff.1 done
          cases last
          exact (left integratedLeft).cons v
        · cases done
    | div =>
      rw [antiderivative_div depends] at done
      cases dependsRight : v.dependsOn var with
      | false =>
        simp only [dependsRight, Bool.not_false, if_true] at done
        obtain ⟨f, integratedLeft, last⟩ := bind_eq_ok_iff.1 done
        cases last
        exact (left integratedLeft).cons_right v
      | true =>
        simp only [dependsRight, Bool.not_true, Bool.false_eq_true, if_false] at done
        split at done
        · obtain ⟨g, below, last⟩ := bind_eq_ok_iff.1 done
          cases last
          exact (hasCallsOf_reciprocal dependsRight below).underNumerator u
        · cases done
    | pow => exact hasCallsOf_pow depends done

/-- The calls of an antiderivative. By induction on the integrand, one case for each form of it: integration
    goes into the operands from which nothing is kept. A call that is integrated itself leaves none, since
    it is resolved and all its operations are carried out. -/
theorem hasCallsOf_antiderivative {Number : α → Prop} {Name : String → Prop} :
    ∀ {e F : Expr α}, e.MadeOf Number Name → e.antiderivative var = .ok F → F.HasCallsOf (e.kept var)
  | number value, F, _, done => by
      rw [antiderivative_number] at done
      cases done
      intro c
      simp [kept, mul_def]
  | symbol name, F, _, done => by
      rw [antiderivative_symbol] at done
      split at done
      · cases done
        intro c
        simp [kept, div_def, Elementary.square, pow_def]
      · cases done
        intro c
        simp [kept, mul_def]
  | neg u, F, made, done => by
      rw [antiderivative_neg] at done
      rw [kept]
      cases depends : (neg u).dependsOn var with
      | false =>
        simp only [depends, Bool.not_false, if_true] at done
        cases done
        intro c
        simp [mul_def]
      | true =>
        simp only [depends, Bool.not_true, Bool.false_eq_true, if_false] at done
        obtain ⟨g, integrated, last⟩ := bind_eq_ok_iff.1 done
        cases last
        intro c
        rw [neg_def, calls_neg, if_pos rfl]
        exact hasCallsOf_antiderivative (madeOf_neg.1 made) integrated c
  | apply function u, F, _, done => by
      rw [antiderivative_apply] at done
      split at done
      · cases done
        intro c
        simp [kept, mul_def]
      · split at done
        · cases done
        · next outer known =>
          obtain ⟨slope, -, last⟩ := bind_eq_ok_iff.1 done
          cases slope with
          | none => cases last
          | some slope =>
            cases last
            intro c
            simp [kept, mem_calls_antiderivativeAt? known]
  | binary op u v, F, made, done => by
      obtain ⟨madeLeft, madeRight⟩ := madeOf_binary.1 made
      exact hasCallsOf_antiderivative_binary (fun left => hasCallsOf_antiderivative madeLeft left)
        (fun right => hasCallsOf_antiderivative madeRight right) done
  | call name arguments, F, made, done => by
      rw [antiderivative_call] at done
      obtain ⟨r, resolved, rest⟩ := bind_eq_ok_iff.1 done
      split at rest
      · cases rest
      · have none_ : F.calls = [] := by
          have depth := callDepth_antiderivative rest
          rw [callDepth_resolve_of_madeOf made resolved] at depth
          exact calls_eq_nil_iff.2 (Nat.le_zero.1 depth)
        intro c
        simp [kept, none_]

end Left

/-! ### An integral that is a factor -/

/-- `int(y, t)`, which does not contain `x`. -/
def constantIntegral : Expr Double := call integralName [symbol "y", symbol "t"]

theorem parse_integralFactor : parse "int(y, t) * x" = .ok (constantIntegral * symbol "x") := by
  have x : Token.IsIdentifier "x" := (Token.isIdentifier_iff "x").2 ⟨'x', [], rfl, rfl, by simp⟩
  have y : Token.IsIdentifier "y" := (Token.isIdentifier_iff "y").2 ⟨'y', [], rfl, rfl, by simp⟩
  have t : Token.IsIdentifier "t" := (Token.isIdentifier_iff "t").2 ⟨'t', [], rfl, rfl, by simp⟩
  have formed : (constantIntegral * symbol "x").WellFormed :=
    .binary (.call rfl (.symbol ⟨y, rfl⟩) ⟨t, rfl⟩) (.symbol ⟨x, rfl⟩)
  exact formed.printable.parse_text fun value mem => nomatch mem

theorem antiderivative_integralFactor :
    (constantIntegral * symbol "x").antiderivative "x" =
      .ok (constantIntegral * (Elementary.square (symbol "x") / ofNat 2)) := by
  rw [mul_def, antiderivative_mul rfl, antiderivative_symbol]
  rfl

/-! ### Texts -/

/-- If the expression of a text is integrated, the calls in the result are those in the parts that
    integration keeps. So the result has no call at any depth exactly if none of these parts has one. And if
    the expression is resolved before it is integrated, nothing in the result is a call. -/
theorem calls_left_by_integration {α : Type} [Numeral α] {text var : String} {e F : Expr α}
    (read : parse text = .ok e) (integrated : e.antiderivative var = .ok F) :
    (∀ c, c ∈ F.calls ↔ ∃ part ∈ e.kept var, c ∈ part.calls) ∧
    ((∀ node ∈ F.postOrder, node.isCall = false) ↔
      ∀ part ∈ e.kept var, ∀ node ∈ part.postOrder, node.isCall = false) ∧
    ∀ r G : Expr α, e.resolve = .ok r → r.antiderivative var = .ok G →
      ∀ node ∈ G.postOrder, node.isCall = false := by
  have made : e.MadeOf (fun _ => True) _ :=
    madeOf_parse trivial trivial (fun _ _ _ => trivial) read
  have left : F.HasCallsOf (e.kept var) := hasCallsOf_antiderivative made integrated
  refine ⟨left, ?_, fun r G resolved integratedLater => ?_⟩
  · simp only [← callFree_iff, ← calls_eq_nil_iff, List.eq_nil_iff_forall_not_mem]
    constructor
    · exact fun none_ part mem c inside => none_ c ((left c).2 ⟨part, mem, inside⟩)
    · intro none_ c inside
      obtain ⟨part, mem, there⟩ := (left c).1 inside
      exact none_ part mem c there
  · have depth := callDepth_antiderivative integratedLater
    rw [callDepth_resolve_of_madeOf made resolved] at depth
    exact callFree_iff.1 (Nat.le_zero.1 depth)

/-- An integral by another variable is a constant factor and is kept, so one call is left. Resolved before,
    the factor is a product. -/
theorem calls_left_by_integration_factor :
    let e : Expr Double := constantIntegral * symbol "x"
    let F : Expr Double := constantIntegral * (Elementary.square (symbol "x") / ofNat 2)
    parse "int(y, t) * x" = .ok e ∧ e.antiderivative "x" = .ok F ∧
      (∀ c, c ∈ F.calls ↔ c = constantIntegral) ∧
      ∀ r G : Expr Double, e.resolve = .ok r → r.antiderivative "x" = .ok G →
        ∀ node ∈ G.postOrder, node.isCall = false := by
  intro e F
  obtain ⟨left, -, none_⟩ := calls_left_by_integration parse_integralFactor antiderivative_integralFactor
  refine ⟨parse_integralFactor, antiderivative_integralFactor, fun c => ?_, none_⟩
  have part : e.kept "x" = [constantIntegral] := rfl
  have one : constantIntegral.calls = [constantIntegral] := rfl
  rw [left c, part]
  simp [one]

/-- So an antiderivative can have calls that are still to be carried out. -/
theorem integration_leaves_a_call :
    let e : Expr Double := constantIntegral * symbol "x"
    let F : Expr Double := constantIntegral * (Elementary.square (symbol "x") / ofNat 2)
    parse "int(y, t) * x" = .ok e ∧ e.antiderivative "x" = .ok F ∧
      ¬ ∀ node ∈ F.postOrder, node.isCall = false := by
  intro e F
  refine ⟨parse_integralFactor, antiderivative_integralFactor, fun none_ => ?_⟩
  have inside : constantIntegral ∈ F.postOrder := by simp [F, constantIntegral, postOrder]
  exact Bool.false_ne_true (none_ constantIntegral inside).symm

end SymbolicCalculus.Expr
