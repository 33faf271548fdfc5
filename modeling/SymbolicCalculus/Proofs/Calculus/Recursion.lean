/-
Module: SymbolicCalculus.Proofs.Calculus.Recursion
Layer: Proofs
Purpose: Why the operations of the calculus come to an end. They call each other on expressions that they
  have made and that may be larger than those they were given. What never grows is the depth of the calls
  inside each other: where the depth stays, an operation goes on with a smaller expression, or an
  integration with the resolution of the same one. The recursion is given here as it is written, without a
  reason why it ends; cut off at some depth of recursion it gives the outcomes of the operations.
Main exports: Expr.callDepth_derivative, Expr.callDepth_antiderivative, Expr.callDepth_resolve, Request,
  Request.outcome, Request.asked, Request.asked_wellFounded, Request.body, Request.body_eq,
  Request.carriedOut, Request.Ends, Request.ends, calculus_ends
-/
import Mathlib.Order.WellFounded
import SymbolicCalculus.Calculus.Equations
import SymbolicCalculus.Double
import SymbolicCalculus.Expr.Traversal
import SymbolicCalculus.Formula.Meaning
import SymbolicCalculus.Proofs.Success

namespace SymbolicCalculus

namespace Expr

variable {α : Type}

/-! ### The depth of calls -/

theorem callDepth_le_of_mem {e : Expr α} :
    ∀ {es : List (Expr α)}, e ∈ es → e.callDepth ≤ callDepthOfAll es
  | first :: others, mem => by
      rw [callDepthOfAll]
      rcases List.mem_cons.1 mem with rfl | inside
      · exact Nat.le_max_left _ _
      · exact Nat.le_trans (callDepth_le_of_mem inside) (Nat.le_max_right _ _)

theorem nodeCount_le_of_mem {e : Expr α} :
    ∀ {es : List (Expr α)}, e ∈ es → e.nodeCount ≤ nodeCountOfAll es
  | first :: others, mem => by
      rw [nodeCountOfAll]
      rcases List.mem_cons.1 mem with rfl | inside
      · exact Nat.le_add_right _ _
      · exact Nat.le_trans (nodeCount_le_of_mem inside) (Nat.le_add_left _ _)

/-- An operand has no deeper calls than the expression, and it is smaller. -/
theorem operand_le {u e : Expr α} (mem : u ∈ e.operands) :
    u.callDepth ≤ e.callDepth ∧ u.nodeCount < e.nodeCount := by
  cases e with
  | number | symbol => cases mem
  | neg operand | apply _ operand =>
    rw [operands, List.mem_singleton] at mem
    subst mem
    exact ⟨Nat.le_refl _, Nat.lt_succ_self _⟩
  | binary op left right =>
    simp only [operands, List.mem_cons, List.not_mem_nil, or_false] at mem
    simp only [callDepth, nodeCount]
    rcases mem with rfl | rfl
    · exact ⟨Nat.le_max_left _ _, by omega⟩
    · exact ⟨Nat.le_max_right _ _, by omega⟩
  | call name arguments =>
    have mem : u ∈ arguments := mem
    have depth := callDepth_le_of_mem mem
    have nodes := nodeCount_le_of_mem mem
    simp only [callDepth, nodeCount]
    omega

variable [Scalar α] {e result : Expr α} {var : String}

/-- A derivative has no deeper calls than the expression. -/
theorem callDepth_derivative (done : e.derivative var = .ok result) :
    result.callDepth ≤ e.callDepth := by
  rcases map_eq_ok_iff.1 done with ⟨⟨_, bound⟩, -, rfl⟩
  exact bound

/-- An antiderivative has no deeper calls than the expression. -/
theorem callDepth_antiderivative (done : e.antiderivative var = .ok result) :
    result.callDepth ≤ e.callDepth := by
  rcases map_eq_ok_iff.1 done with ⟨⟨_, bound⟩, -, rfl⟩
  exact bound

/-- Carrying out the calls does not put calls deeper into each other; what was a call and is one no more
    has fewer inside each other. -/
theorem callDepth_resolve (done : e.resolve = .ok result) :
    result.callDepth ≤ e.callDepth ∧
      (e.isCall = true → result.isCall = false → result.callDepth < e.callDepth) := by
  rcases map_eq_ok_iff.1 done with ⟨⟨_, bound⟩, -, rfl⟩
  exact bound

theorem callDepth_resolveAll {es results : List (Expr α)} (done : resolveAll es = .ok results) :
    callDepthOfAll results ≤ callDepthOfAll es := by
  rcases map_eq_ok_iff.1 done with ⟨⟨_, bound⟩, -, rfl⟩
  exact bound

end Expr

open SymbolicCalculus.Expr

variable {α : Type}

/-! ### Requests -/

/-- One of the operations of the calculus with what it is to be carried out on. -/
inductive Request (α : Type) where
  | derivative (e : Expr α) (var : String)
  | antiderivative (e : Expr α) (var : String)
  | resolution (e : Expr α)

namespace Request

/-- What a call asks for. -/
def ofOperation : Operation → Expr α → String → Request α
  | .integration, f, bound => antiderivative f bound
  | .differentiation, f, bound => derivative f bound

/-- The expression that the operation is carried out on. -/
def subject : Request α → Expr α
  | derivative e _ => e
  | antiderivative e _ => e
  | resolution e => e

theorem subject_ofOperation (operation : Operation) (f : Expr α) (bound : String) :
    (ofOperation operation f bound).subject = f := by
  cases operation <;> rfl

/-! ### The measure -/

/-- How much a request has to do: the depth of calls counts first, then the size, then the operation. -/
def workload : Request α → Nat × Nat × Nat
  | derivative e _ => (e.callDepth, e.nodeCount, 0)
  | antiderivative e _ => (e.callDepth, e.nodeCount, 1)
  | resolution e => (e.callDepth, e.nodeCount, 0)

/-- The one request has less to do than the other. -/
def Lighter (next request : Request α) : Prop :=
  Prod.Lex (· < ·) (Prod.Lex (· < ·) (· < ·)) next.workload request.workload

/-- A request on an expression with fewer calls inside each other is lighter. -/
theorem lighter_of_callDepth {next request : Request α}
    (fewer : next.subject.callDepth < request.subject.callDepth) : Lighter next request := by
  cases next <;> cases request <;> exact workload_lt (.inl fewer)

/-- A request on a smaller expression is lighter, if the calls are no deeper inside each other. -/
theorem lighter_of_nodeCount {next request : Request α}
    (depth : next.subject.callDepth ≤ request.subject.callDepth)
    (fewer : next.subject.nodeCount < request.subject.nodeCount) : Lighter next request := by
  cases next <;> cases request <;> exact workload_lt (.inr ⟨depth, .inl fewer⟩)

theorem lighter_of_operand {next request : Request α}
    (mem : next.subject ∈ request.subject.operands) : Lighter next request :=
  lighter_of_nodeCount (operand_le mem).1 (operand_le mem).2

/-- What a call asks for is done on an expression with fewer calls inside each other. -/
theorem callDepth_subject_ofOperation {name bound : String} {arguments : List (Expr α)} {f : Expr α}
    {operation : Operation} (known : operation? name arguments = some (operation, f, bound)) :
    (ofOperation operation f bound).subject.callDepth ≤ callDepthOfAll arguments := by
  rw [subject_ofOperation]
  exact depth_operation? known

variable [Scalar α]

/-- What the operation comes to. -/
def outcome : Request α → Except (CalculusCause α) (Expr α)
  | derivative e var => e.derivative var
  | antiderivative e var => e.antiderivative var
  | resolution e => e.resolve

theorem callDepth_outcome {request : Request α} {result : Expr α}
    (done : request.outcome = .ok result) : result.callDepth ≤ request.subject.callDepth := by
  cases request with
  | derivative e var => exact callDepth_derivative done
  | antiderivative e var => exact callDepth_antiderivative done
  | resolution e => exact (callDepth_resolve done).1

/-! ### What a request asks for -/

/-- The requests that a derivative may lead to at once. -/
def askedByDerivative (e : Expr α) (var : String) : List (Request α) :=
  match e with
  | call name arguments =>
      match operation? name arguments with
      | none => []
      | some (operation, f, bound) =>
          ofOperation operation f bound ::
            match (ofOperation operation f bound).outcome with
            | .ok g => [derivative g var]
            | .error _ => []
  | e => e.operands.map (derivative · var)

/-- The power that stands for one over a power, as a request for its antiderivative. -/
def askedByReciprocal (e : Expr α) (var : String) : List (Request α) :=
  match e with
  | binary .div _ (binary .pow base exponent) => [antiderivative (base ^ exponent.negatedExponent) var]
  | _ => []

/-- The requests that an antiderivative may lead to at once: those for its operands, for their slopes, and
    for the power that stands for one over a power. -/
def askedByAntiderivative (e : Expr α) (var : String) : List (Request α) :=
  match e with
  | call name arguments =>
      resolution (call name arguments) ::
        match (call name arguments).resolve with
        | .ok r => if r.isCall then [] else [antiderivative r var]
        | .error _ => []
  | e =>
      e.operands.map (antiderivative · var) ++ e.operands.map (derivative · var) ++
        askedByReciprocal e var

/-- The requests that a resolution may lead to at once. -/
def askedByResolution (e : Expr α) : List (Request α) :=
  e.operands.map resolution ++
    match e with
    | call name arguments =>
        match resolveAll arguments with
        | .error _ => []
        | .ok resolved =>
            match operation? name resolved with
            | none => []
            | some (operation, f, bound) => [ofOperation operation f bound]
    | _ => []

/-- The requests that one may lead to at once. -/
def asked : Request α → List (Request α)
  | derivative e var => askedByDerivative e var
  | antiderivative e var => askedByAntiderivative e var
  | resolution e => askedByResolution e

/-! ### The recursion goes down -/

theorem lighter_of_mem_askedByDerivative {next : Request α} {e : Expr α} {var : String}
    (mem : next ∈ askedByDerivative e var) : Lighter next (derivative e var) := by
  unfold askedByDerivative at mem
  split at mem
  · next name arguments =>
    split at mem
    · cases mem
    · next operation f bound known =>
      have depth := callDepth_subject_ofOperation known
      have first : (ofOperation operation f bound).subject.callDepth <
          (call name arguments).callDepth := Nat.lt_succ_of_le depth
      rcases List.mem_cons.1 mem with rfl | mem
      · exact lighter_of_callDepth first
      · split at mem
        · next g done =>
          obtain rfl := List.mem_singleton.1 mem
          exact lighter_of_callDepth (Nat.lt_of_le_of_lt (callDepth_outcome done) first)
        · cases mem
  · obtain ⟨u, inside, rfl⟩ := List.mem_map.1 mem
    exact lighter_of_operand inside

/-- A negated exponent is larger by one node at most, and the quotient had one more. -/
theorem lighter_of_mem_askedByReciprocal {next : Request α} {e : Expr α} {var : String}
    (mem : next ∈ askedByReciprocal e var) : Lighter next (antiderivative e var) := by
  unfold askedByReciprocal at mem
  split at mem
  · next u base exponent =>
    have depth := callDepth_negatedExponent exponent
    have nodes := nodeCount_negatedExponent exponent
    have pos := nodeCount_pos u
    obtain rfl := List.mem_singleton.1 mem
    refine lighter_of_nodeCount ?_ ?_
    · simp only [subject, pow_def, callDepth]
      omega
    · simp only [subject, pow_def, nodeCount]
      omega
  · cases mem

theorem lighter_of_mem_askedByAntiderivative {next : Request α} {e : Expr α} {var : String}
    (mem : next ∈ askedByAntiderivative e var) : Lighter next (antiderivative e var) := by
  unfold askedByAntiderivative at mem
  split at mem
  · next name arguments =>
    rcases List.mem_cons.1 mem with rfl | mem
    · -- the resolution of the same expression comes before its integration
      exact workload_lt (.inr ⟨Nat.le_refl _, .inr ⟨Nat.le_refl _, Nat.zero_lt_one⟩⟩)
    · split at mem
      · next r done =>
        split at mem
        · cases mem
        · next noCall =>
          obtain rfl := List.mem_singleton.1 mem
          exact lighter_of_callDepth ((callDepth_resolve done).2 rfl (Bool.eq_false_iff.2 noCall))
      · cases mem
  · rcases List.mem_append.1 mem with mem | mem
    · rcases List.mem_append.1 mem with mem | mem
      · obtain ⟨u, inside, rfl⟩ := List.mem_map.1 mem
        exact lighter_of_operand inside
      · obtain ⟨u, inside, rfl⟩ := List.mem_map.1 mem
        exact lighter_of_operand inside
    · exact lighter_of_mem_askedByReciprocal mem

theorem lighter_of_mem_askedByResolution {next : Request α} {e : Expr α}
    (mem : next ∈ askedByResolution e) : Lighter next (resolution e) := by
  rcases List.mem_append.1 mem with mem | mem
  · obtain ⟨u, inside, rfl⟩ := List.mem_map.1 mem
    exact lighter_of_operand inside
  · split at mem
    · next name arguments =>
      split at mem
      · cases mem
      · next resolved done =>
        split at mem
        · cases mem
        · next operation f bound known =>
          obtain rfl := List.mem_singleton.1 mem
          have depth := callDepth_subject_ofOperation known
          refine lighter_of_callDepth (Nat.lt_succ_of_le ?_)
          exact Nat.le_trans depth (callDepth_resolveAll done)
    · cases mem

/-- A request leads to lighter ones only. -/
theorem lighter_of_mem_asked {next request : Request α} (mem : next ∈ request.asked) :
    Lighter next request := by
  cases request with
  | derivative e var => exact lighter_of_mem_askedByDerivative mem
  | antiderivative e var => exact lighter_of_mem_askedByAntiderivative mem
  | resolution e => exact lighter_of_mem_askedByResolution mem

/-- No chain of requests that lead to each other goes on without end. -/
theorem asked_wellFounded : WellFounded fun next request : Request α => next ∈ request.asked := by
  have order : WellFounded (Prod.Lex (· < · : Nat → Nat → Prop)
      (Prod.Lex (· < · : Nat → Nat → Prop) (· < · : Nat → Nat → Prop))) :=
    (Prod.lex ⟨_, Nat.lt_wfRel.wf⟩ (Prod.lex ⟨_, Nat.lt_wfRel.wf⟩ ⟨_, Nat.lt_wfRel.wf⟩)).wf
  exact Subrelation.wf lighter_of_mem_asked (InvImage.wf workload order)

/-! ### The recursion as it is written -/

/-- An outcome, or none if the recursion was cut off before there was one. -/
abbrev Attempt (α β : Type) := ExceptT (CalculusCause α) Option β

/-- The attempt that has come to an outcome. -/
def Attempt.ended {β : Type} (outcome : Except (CalculusCause α) β) : Attempt α β :=
  ExceptT.mk (some outcome)

/-- The slope that a derivative shows: the number that it is simplified to. -/
def slopeShown : Except (CalculusCause α) (Expr α) → Except (CalculusCause α) (Option α)
  | .error (.passLimit limit) => .error (.passLimit limit)
  | .error _ => .ok none
  | .ok du =>
      match du.simplify with
      | .error limit => .error (.passLimit limit)
      | .ok slope =>
          .ok (slope.asNumber?.filter fun a => Scalar.isFinite a && !(a == Scalar.ofNat 0))

section Bodies

variable (ask : Request α → Attempt α (Expr α))

/-- The slope of an expression that is linear in a variable. -/
def slopeBody (u : Expr α) (var : String) : Attempt α (Option α) :=
  if u.asSymbol? = some var then return some (Scalar.ofNat 1)
  else ExceptT.mk ((ask (derivative u var)).run.map slopeShown)

/-- Differentiation, with the calls that it makes answered by `ask`. -/
def derivativeBody (e : Expr α) (var : String) : Attempt α (Expr α) :=
  match e with
  | number _ => return .ofNat 0
  | symbol name => return if name = var then .ofNat 1 else .ofNat 0
  | neg u => do
      let du ← ask (derivative u var)
      return -du
  | apply function u =>
      match function.derivativeAt? u with
      | none => throw (.unsupportedDerivative function.name)
      | some outer => do
          let du ← ask (derivative u var)
          return outer * du
  | binary .add u v => do
      let du ← ask (derivative u var)
      let dv ← ask (derivative v var)
      return du + dv
  | binary .sub u v => do
      let du ← ask (derivative u var)
      let dv ← ask (derivative v var)
      return du - dv
  | binary .mul u v => do
      let du ← ask (derivative u var)
      let dv ← ask (derivative v var)
      return du * v + u * dv
  | binary .div u v =>
      if v.dependsOn var then do
        let du ← ask (derivative u var)
        let dv ← ask (derivative v var)
        return (du * v - u * dv) / Elementary.square v
      else do
        let du ← ask (derivative u var)
        return du / v
  | binary .pow u v =>
      if !v.dependsOn var then do
        let du ← ask (derivative u var)
        return v * u ^ (v - .ofNat 1) * du
      else if !u.dependsOn var then do
        let dv ← ask (derivative v var)
        return u ^ v * apply .ln u * dv
      else do
        let du ← ask (derivative u var)
        let dv ← ask (derivative v var)
        return u ^ v * (dv * apply .ln u + v * du / u)
  | call name arguments =>
      match operation? name arguments with
      | none => throw (.unsupportedDerivative name)
      | some (.integration, f, bound) =>
          if bound = var then return f
          else do
            let g ← ask (antiderivative f bound)
            ask (derivative g var)
      | some (.differentiation, f, bound) => do
          let g ← ask (derivative f bound)
          ask (derivative g var)

/-- Integration of one over an expression that depends on the variable. -/
def reciprocalBody (numerator denominator : Expr α) (var : String) : Attempt α (Expr α) :=
  match denominator with
  | binary .pow u v =>
      if !v.dependsOn var then ask (antiderivative (u ^ v.negatedExponent) var)
      else do
        match ← slopeBody ask (binary .pow u v) var with
        | none => throw (.nonIntegrable (numerator / binary .pow u v))
        | some slope => return (apply .ln (binary .pow u v)).overSlope slope
  | v => do
      match ← slopeBody ask v var with
      | none => throw (.nonIntegrable (numerator / v))
      | some slope => return (apply .ln v).overSlope slope

/-- Integration of an operation on two operands that depends on the variable. -/
def binaryBody (op : BinaryOp) (u v : Expr α) (var : String) : Attempt α (Expr α) :=
  match op with
  | .add => do
      let f ← ask (antiderivative u var)
      let g ← ask (antiderivative v var)
      return f + g
  | .sub => do
      let f ← ask (antiderivative u var)
      let g ← ask (antiderivative v var)
      return f - g
  | .mul =>
      if !u.dependsOn var then do
        let g ← ask (antiderivative v var)
        return u * g
      else if !v.dependsOn var then do
        let f ← ask (antiderivative u var)
        return v * f
      else throw (.nonIntegrable (binary .mul u v))
  | .div =>
      if !v.dependsOn var then do
        let f ← ask (antiderivative u var)
        return f / v
      else if !u.dependsOn var then do
        let g ← reciprocalBody ask u v var
        return if u.isNat 1 then g else u * g
      else throw (.nonIntegrable (binary .div u v))
  | .pow =>
      if !v.dependsOn var then
        match v.simplify with
        | .error limit => throw (.passLimit limit)
        | .ok w => do
            match ← slopeBody ask u var with
            | none => throw (.nonIntegrable (binary .pow u v))
            | some slope => return (powerAntiderivative u w).overSlope slope
      else if !u.dependsOn var then do
        match ← slopeBody ask v var with
        | none => throw (.nonIntegrable (binary .pow u v))
        | some slope => return (binary .pow u v / apply .ln u).overSlope slope
      else throw (.nonIntegrable (binary .pow u v))

/-- Integration, with the calls that it makes answered by `ask`. -/
def antiderivativeBody (e : Expr α) (var : String) : Attempt α (Expr α) :=
  match e with
  | call name arguments => do
      let r ← ask (resolution (call name arguments))
      if r.isCall then throw (.nonIntegrable (call name arguments))
      else ask (antiderivative r var)
  | number value => return number value * symbol var
  | symbol name =>
      return if name = var then Elementary.square (symbol name) / .ofNat 2
        else symbol name * symbol var
  | neg u =>
      if !(neg u).dependsOn var then return neg u * symbol var
      else do
        let g ← ask (antiderivative u var)
        return -g
  | apply function u =>
      if !(apply function u).dependsOn var then return apply function u * symbol var
      else
        match function.antiderivativeAt? u with
        | none => throw (.nonIntegrable (apply function u))
        | some outer => do
            match ← slopeBody ask u var with
            | none => throw (.nonIntegrable (apply function u))
            | some slope => return outer.overSlope slope
  | binary op u v =>
      if !(binary op u v).dependsOn var then return binary op u v * symbol var
      else binaryBody ask op u v var

/-- Resolution, with the calls that it makes answered by `ask`. -/
def resolutionBody (e : Expr α) : Attempt α (Expr α) :=
  match e with
  | number value => return number value
  | symbol name => return symbol name
  | neg u => do
      let r ← ask (resolution u)
      return neg r
  | apply function u => do
      let r ← ask (resolution u)
      return apply function r
  | binary op u v => do
      let r ← ask (resolution u)
      let s ← ask (resolution v)
      return binary op r s
  | call name arguments => do
      let resolved ← arguments.mapM fun e => ask (resolution e)
      match operation? name resolved with
      | none => return call name resolved
      | some (operation, f, bound) => ask (ofOperation operation f bound)

/-- One operation as it is written, with the calls that it makes answered by `ask`. -/
def body : Request α → Attempt α (Expr α)
  | derivative e var => derivativeBody ask e var
  | antiderivative e var => antiderivativeBody ask e var
  | resolution e => resolutionBody ask e

end Bodies

/-- The operation with the recursion cut off below the given depth. -/
def carriedOut : Nat → Request α → Attempt α (Expr α)
  | 0, _ => ExceptT.mk none
  | depth + 1, request => body (carriedOut depth) request

/-! ### The operations answer the recursion -/

section Answers

variable {ask : Request α → Attempt α (Expr α)}

/-- The request is answered with the outcome of the operation. -/
def Answered (ask : Request α → Attempt α (Expr α)) (request : Request α) : Prop :=
  ask request = .ended request.outcome

theorem slopeBody_eq {u : Expr α} {var : String} (answered : Answered ask (derivative u var)) :
    slopeBody ask u var = .ended (u.slope? var) := by
  have answered : ask (derivative u var) = .ended (u.derivative var) := answered
  unfold slopeBody
  rw [answered, slope?_eq]
  split
  · rfl
  · cases u.derivative var with
    | error cause => cases cause <;> rfl
    | ok du => rfl

theorem derivativeBody_binary {op : BinaryOp} {u v : Expr α} {var : String}
    (answered : ∀ next ∈ askedByDerivative (binary op u v) var, Answered ask next) :
    derivativeBody ask (binary op u v) var = .ended ((binary op u v).derivative var) := by
  have du : ask (derivative u var) = .ended (u.derivative var) :=
    answered _ (List.mem_cons_self ..)
  have dv : ask (derivative v var) = .ended (v.derivative var) :=
    answered _ (List.mem_cons_of_mem _ (List.mem_singleton_self _))
  cases op with
  | add =>
    rw [derivative_add, derivativeBody, du, dv]
    cases u.derivative var <;> cases v.derivative var <;> rfl
  | sub =>
    rw [derivative_sub, derivativeBody, du, dv]
    cases u.derivative var <;> cases v.derivative var <;> rfl
  | mul =>
    rw [derivative_mul, derivativeBody, du, dv]
    cases u.derivative var <;> cases v.derivative var <;> rfl
  | div =>
    rw [derivative_div, derivativeBody, du, dv]
    split
    · cases u.derivative var <;> cases v.derivative var <;> rfl
    · cases u.derivative var <;> rfl
  | pow =>
    rw [derivative_pow, derivativeBody, du, dv]
    split
    · cases u.derivative var <;> rfl
    · split
      · cases v.derivative var <;> rfl
      · cases u.derivative var <;> cases v.derivative var <;> rfl

theorem derivativeBody_call {name var : String} {arguments : List (Expr α)}
    (answered : ∀ next ∈ askedByDerivative (call name arguments) var, Answered ask next) :
    derivativeBody ask (call name arguments) var = .ended ((call name arguments).derivative var) := by
  rw [derivative_call, derivativeBody]
  unfold askedByDerivative at answered
  cases known : operation? name arguments with
  | none => rfl
  | some asked_ =>
    obtain ⟨operation, f, bound⟩ := asked_
    simp only [known] at answered
    have first : ask (ofOperation operation f bound) = .ended (ofOperation operation f bound).outcome :=
      answered _ (List.mem_cons_self ..)
    have second {g : Expr α} (done : (ofOperation operation f bound).outcome = .ok g) :
        ask (derivative g var) = .ended (g.derivative var) := by
      refine answered _ (List.mem_cons_of_mem _ ?_)
      rw [done]
      exact List.mem_singleton_self _
    cases operation with
    | integration =>
      simp only
      split
      · rfl
      · change (ask (antiderivative f bound) >>= fun g => ask (derivative g var)) = _
        rw [show ask (antiderivative f bound) = .ended (f.antiderivative bound) from first]
        cases done : f.antiderivative bound with
        | error cause => rfl
        | ok g => exact second done
    | differentiation =>
      simp only
      rw [show ask (derivative f bound) = .ended (f.derivative bound) from first]
      cases done : f.derivative bound with
      | error cause => rfl
      | ok g => exact second done

theorem derivativeBody_eq {e : Expr α} {var : String}
    (answered : ∀ next ∈ askedByDerivative e var, Answered ask next) :
    derivativeBody ask e var = .ended (e.derivative var) := by
  cases e with
  | number value => rw [derivative_number]; rfl
  | symbol name =>
    rw [derivative_symbol, derivativeBody]
    split <;> rfl
  | neg u =>
    have du : ask (derivative u var) = .ended (u.derivative var) :=
      answered _ (List.mem_singleton_self _)
    rw [derivative_neg, derivativeBody, du]
    cases u.derivative var <;> rfl
  | apply function u =>
    have du : ask (derivative u var) = .ended (u.derivative var) :=
      answered _ (List.mem_singleton_self _)
    rw [derivative_apply, derivativeBody, du]
    cases function.derivativeAt? u with
    | none => rfl
    | some outer => cases u.derivative var <;> rfl
  | binary op u v => exact derivativeBody_binary answered
  | call name arguments => exact derivativeBody_call answered

/-- One over a power leads to the power with the negative exponent, one over any other expression to its
    slope. -/
theorem reciprocalBody_eq {numerator denominator : Expr α} {var : String}
    (power : ∀ base exponent, denominator = binary .pow base exponent →
      Answered ask (antiderivative (base ^ exponent.negatedExponent) var))
    (answered : Answered ask (derivative denominator var)) :
    reciprocalBody ask numerator denominator var = .ended (reciprocal numerator denominator var) := by
  have slope := slopeBody_eq answered
  unfold reciprocalBody
  split
  · next base exponent =>
    cases free : exponent.dependsOn var with
    | false =>
      rw [reciprocal_pow numerator free]
      exact power base exponent rfl
    | true =>
      have other : ∀ u v, binary .pow base exponent = binary .pow u v → v.dependsOn var = true := by
        rintro _ _ ⟨⟩
        exact free
      rw [reciprocal_of_not_pow numerator other]
      simp only [Bool.not_true, Bool.false_eq_true, if_false]
      rw [slope]
      cases (binary .pow base exponent).slope? var with
      | error cause => rfl
      | ok slope => cases slope <;> rfl
  · next noPower =>
    have other : ∀ u v, denominator = binary .pow u v → v.dependsOn var = true :=
      fun u v same => absurd same (noPower u v)
    rw [reciprocal_of_not_pow numerator other, slope]
    cases denominator.slope? var with
    | error cause => rfl
    | ok slope => cases slope <;> rfl

theorem binaryBody_eq {op : BinaryOp} {u v : Expr α} {var : String}
    (depends : (binary op u v).dependsOn var = true)
    (answered : ∀ next ∈ askedByAntiderivative (binary op u v) var, Answered ask next) :
    binaryBody ask op u v var = .ended ((binary op u v).antiderivative var) := by
  have f : ask (antiderivative u var) = .ended (u.antiderivative var) :=
    answered _ (by simp [askedByAntiderivative, operands])
  have g : ask (antiderivative v var) = .ended (v.antiderivative var) :=
    answered _ (by simp [askedByAntiderivative, operands])
  have du : Answered ask (derivative u var) :=
    answered _ (by simp [askedByAntiderivative, operands])
  have dv : Answered ask (derivative v var) :=
    answered _ (by simp [askedByAntiderivative, operands])
  unfold binaryBody
  cases op with
  | add =>
    simp only
    rw [antiderivative_add depends, f, g]
    cases u.antiderivative var <;> cases v.antiderivative var <;> rfl
  | sub =>
    simp only
    rw [antiderivative_sub depends, f, g]
    cases u.antiderivative var <;> cases v.antiderivative var <;> rfl
  | mul =>
    simp only
    rw [antiderivative_mul depends, f, g]
    split
    · cases v.antiderivative var <;> rfl
    · split
      · cases u.antiderivative var <;> rfl
      · rfl
  | div =>
    have reciprocals : reciprocalBody ask u v var = .ended (reciprocal u v var) := by
      refine reciprocalBody_eq ?_ dv
      rintro base exponent rfl
      exact answered _ (List.mem_append_right _ (List.mem_singleton_self _))
    simp only
    rw [antiderivative_div depends, f, reciprocals]
    split
    · cases u.antiderivative var <;> rfl
    · split
      · cases reciprocal u v var <;> rfl
      · rfl
  | pow =>
    simp only
    rw [antiderivative_pow depends, slopeBody_eq du, slopeBody_eq dv]
    split
    · cases v.simplify with
      | error limit => rfl
      | ok w =>
        cases u.slope? var with
        | error cause => rfl
        | ok slope => cases slope <;> rfl
    · split
      · cases v.slope? var with
        | error cause => rfl
        | ok slope => cases slope <;> rfl
      · rfl

theorem antiderivativeBody_eq {e : Expr α} {var : String}
    (answered : ∀ next ∈ askedByAntiderivative e var, Answered ask next) :
    antiderivativeBody ask e var = .ended (e.antiderivative var) := by
  cases e with
  | number value => rw [antiderivative_number]; rfl
  | symbol name =>
    rw [antiderivative_symbol, antiderivativeBody]
    split <;> rfl
  | neg u =>
    have g : ask (antiderivative u var) = .ended (u.antiderivative var) :=
      answered _ (by simp [askedByAntiderivative, operands])
    rw [antiderivative_neg, antiderivativeBody, g]
    split
    · rfl
    · cases u.antiderivative var <;> rfl
  | apply function u =>
    have du : Answered ask (derivative u var) :=
      answered _ (by simp [askedByAntiderivative, operands])
    rw [antiderivative_apply, antiderivativeBody, slopeBody_eq du]
    split
    · rfl
    · cases function.antiderivativeAt? u with
      | none => rfl
      | some outer =>
        cases u.slope? var with
        | error cause => rfl
        | ok slope => cases slope <;> rfl
  | binary op u v =>
    rw [antiderivativeBody]
    cases depends : (binary op u v).dependsOn var with
    | false => rw [antiderivative_binary_of_not_dependsOn depends]; rfl
    | true => exact binaryBody_eq depends answered
  | call name arguments =>
    have resolved : ask (resolution (call name arguments)) = .ended (call name arguments).resolve :=
      answered _ (List.mem_cons_self ..)
    rw [antiderivative_call, antiderivativeBody, resolved]
    cases done : (call name arguments).resolve with
    | error cause => rfl
    | ok r =>
      cases calls : r.isCall with
      | true => simp only [Except.bind, calls]; exact if_pos calls
      | false =>
        have again : Answered ask (antiderivative r var) := by
          refine answered _ (List.mem_cons_of_mem _ ?_)
          rw [done]
          simp [calls]
        simp only [Except.bind, calls]
        exact (if_neg (Bool.eq_false_iff.1 calls)).trans again

/-- The arguments of a call are resolved one after the other, as far as the first that fails. -/
theorem mapM_resolution_eq {es : List (Expr α)} (answered : ∀ e ∈ es, Answered ask (resolution e)) :
    (es.mapM fun e => ask (resolution e)) = .ended (resolveAll es) := by
  induction es with
  | nil => rw [resolveAll_nil]; rfl
  | cons first others ih =>
    have r : ask (resolution first) = .ended first.resolve := answered _ (List.mem_cons_self ..)
    rw [List.mapM_cons, resolveAll_cons, r, ih fun e mem => answered e (List.mem_cons_of_mem _ mem)]
    cases first.resolve <;> cases resolveAll others <;> rfl

theorem resolutionBody_eq {e : Expr α}
    (answered : ∀ next ∈ askedByResolution e, Answered ask next) :
    resolutionBody ask e = .ended e.resolve := by
  have operand {u : Expr α} (mem : u ∈ e.operands) : ask (resolution u) = .ended u.resolve :=
    answered _ (List.mem_append_left _ (List.mem_map.2 ⟨u, mem, rfl⟩))
  cases e with
  | number value => rw [resolve_number]; rfl
  | symbol name => rw [resolve_symbol]; rfl
  | neg u =>
    rw [resolve_neg, resolutionBody, operand (List.mem_singleton_self u)]
    cases u.resolve <;> rfl
  | apply function u =>
    rw [resolve_apply, resolutionBody, operand (List.mem_singleton_self u)]
    cases u.resolve <;> rfl
  | binary op u v =>
    rw [resolve_binary, resolutionBody, operand (List.mem_cons_self ..),
      operand (List.mem_cons_of_mem _ (List.mem_singleton_self v))]
    cases u.resolve <;> cases v.resolve <;> rfl
  | call name arguments =>
    have all := mapM_resolution_eq fun e (mem : e ∈ arguments) => operand mem
    rw [resolve_call, resolutionBody, all]
    cases done : resolveAll arguments with
    | error cause => rfl
    | ok resolved =>
      change (match operation? name resolved with
        | none => pure (call name resolved)
        | some (operation, f, bound) => ask (ofOperation operation f bound)) = _
      simp only [Except.bind]
      cases known : operation? name resolved with
      | none => rfl
      | some asked_ =>
        obtain ⟨operation, f, bound⟩ := asked_
        have last : Answered ask (ofOperation operation f bound) := by
          refine answered _ (List.mem_append_right _ ?_)
          simp [done, known]
        cases operation with
        | integration => exact last
        | differentiation => exact last

/-- If the requests that an operation leads to are answered with their outcomes, the operation as it is
    written comes to its own. -/
theorem body_eq {request : Request α} (answered : ∀ next ∈ request.asked, Answered ask next) :
    body ask request = .ended request.outcome := by
  cases request with
  | derivative e var => exact derivativeBody_eq answered
  | antiderivative e var => exact antiderivativeBody_eq answered
  | resolution e => exact resolutionBody_eq answered

end Answers

/-! ### Every operation comes to an end -/

/-- From some depth of recursion on, however deep, the operation comes to its outcome. -/
def Ends (request : Request α) : Prop :=
  ∃ depth, ∀ deeper, depth ≤ deeper → carriedOut deeper request = .ended request.outcome

/-- Finitely many operations that come to an end do so at one depth of recursion. -/
theorem ends_together {requests : List (Request α)} (each : ∀ request ∈ requests, Ends request) :
    ∃ depth, ∀ deeper, depth ≤ deeper →
      ∀ request ∈ requests, Answered (carriedOut deeper) request := by
  induction requests with
  | nil => exact ⟨0, fun _ _ _ mem => nomatch mem⟩
  | cons first others ih =>
    obtain ⟨depth, one⟩ := each first (List.mem_cons_self ..)
    obtain ⟨depth', rest⟩ := ih fun request mem => each request (List.mem_cons_of_mem _ mem)
    refine ⟨max depth depth', fun deeper enough request mem => ?_⟩
    rcases List.mem_cons.1 mem with rfl | mem
    · exact one deeper (Nat.le_trans (Nat.le_max_left _ _) enough)
    · exact rest deeper (Nat.le_trans (Nat.le_max_right _ _) enough) request mem

/-- By induction on what a request asks for: one level of recursion more than all of it takes is enough. -/
theorem ends (request : Request α) : Ends request := by
  refine (asked_wellFounded (α := α)).induction request fun request ih => ?_
  obtain ⟨depth, answered⟩ := ends_together ih
  refine ⟨depth + 1, fun deeper enough => ?_⟩
  obtain ⟨deeper, rfl⟩ : ∃ below, deeper = below + 1 := ⟨deeper - 1, by omega⟩
  exact body_eq (answered deeper (by omega))

end Request

namespace Expr

/-- A name of an operation with a variable as the second of two arguments asks for the operation. -/
theorem operation?_of_isOperationName {name bound : String} {f : Expr α}
    (known : isOperationName name = true) :
    ∃ operation, operation? name [f, symbol bound] = some (operation, f, bound) := by
  simp only [isOperationName, Bool.or_eq_true, beq_iff_eq] at known
  rcases known with rfl | rfl
  · exact ⟨.integration, rfl⟩
  · exact ⟨.differentiation, rfl⟩

variable [Scalar α]

/-- What a call that asks for an operation is resolved to has fewer calls inside each other. -/
theorem callDepth_resolve_operation {name bound : String} {f v r : Expr α}
    (known : isOperationName name = true) (variable_ : v.resolve = .ok (symbol bound))
    (done : (call name [f, v]).resolve = .ok r) : r.callDepth < (call name [f, v]).callDepth := by
  rw [resolve_call] at done
  obtain ⟨resolved, all, done⟩ := bind_eq_ok_iff.1 done
  have depth := callDepth_resolveAll all
  rw [resolveAll_cons] at all
  obtain ⟨g, -, all⟩ := bind_eq_ok_iff.1 all
  obtain ⟨rest, second, all⟩ := bind_eq_ok_iff.1 all
  rw [resolveAll_cons, variable_, resolveAll_nil] at second
  cases second
  cases all
  obtain ⟨operation, asks⟩ : ∃ operation,
      operation? name [g, symbol bound] = some (operation, g, bound) :=
    operation?_of_isOperationName known
  have inside := depth_operation? asks
  rw [asks] at done
  have result : r.callDepth ≤ g.callDepth := by
    cases operation with
    | integration => exact callDepth_antiderivative done
    | differentiation => exact callDepth_derivative done
  exact Nat.lt_succ_of_le (Nat.le_trans result (Nat.le_trans inside depth))

end Expr

/-- The recursion of the calculus comes to an end on every expression, whatever calls there are in it. What
    comes out has calls no deeper inside each other than the expression; fewer, if a call that asks for an
    operation has been resolved. -/
theorem calculus_ends [Scalar α] (e : Expr α) (var : String) :
    ((Request.resolution e).Ends ∧ (Request.antiderivative e var).Ends ∧
        (Request.derivative e var).Ends) ∧
      (∀ r, e.resolve = .ok r ∨ e.antiderivative var = .ok r ∨ e.derivative var = .ok r →
        r.callDepth ≤ e.callDepth) ∧
      ∀ name f v bound r, e = call name [f, v] → isOperationName name = true →
        v.resolve = .ok (symbol bound) → e.resolve = .ok r → r.callDepth < e.callDepth := by
  refine ⟨⟨Request.ends _, Request.ends _, Request.ends _⟩, ?_, ?_⟩
  · rintro r (done | done | done)
    · exact (callDepth_resolve done).1
    · exact callDepth_antiderivative done
    · exact callDepth_derivative done
  · rintro name f v bound r rfl known variable_ done
    exact callDepth_resolve_operation known variable_ done

/-- The derivative of an integral by another variable is resolved from the inside out; no call is left. -/
theorem calculus_ends_nested :
    let inner : Expr Double := call integralName [symbol "y", symbol "x"]
    let e := call derivativeName [inner, symbol "y"]
    ∃ r, e.resolve = .ok r ∧ r.callDepth < e.callDepth := by
  intro inner e
  have variable_ : (symbol "y" : Expr Double).resolve = .ok (symbol "y") := resolve_symbol "y"
  have integral : inner.resolve = .ok (symbol "y" * symbol "x") := by
    simp only [inner, resolve_call, resolveAll_cons, resolveAll_nil, resolve_symbol]
    exact antiderivative_symbol "y" "x"
  obtain ⟨r, done⟩ : ∃ r, e.resolve = .ok r := by
    simp only [e, resolve_call, resolveAll_cons, resolveAll_nil, integral, variable_]
    refine ⟨.ofNat 1 * symbol "x" + symbol "y" * .ofNat 0, ?_⟩
    change (symbol "y" * symbol "x" : Expr Double).derivative "y" = _
    rw [mul_def, derivative_mul, derivative_symbol, derivative_symbol]
    rfl
  exact ⟨r, done, (calculus_ends e "y").2.2 _ _ _ _ r rfl rfl variable_ done⟩

end SymbolicCalculus
