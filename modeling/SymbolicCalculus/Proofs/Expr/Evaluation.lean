/-
Module: SymbolicCalculus.Proofs.Expr.Evaluation
Layer: Proofs
Purpose: When an expression has a value, what the value depends on, and what is blamed if there is none. The
  evaluator goes through the operands from left to right, stops at the first that has no value, and never
  looks into a call. What it may stop at is said of the tree alone: a symbol without a value that is inside
  of no call, or a call that is inside of no other. It stops at the leftmost of these.
Main exports: EvaluationCause.SameBlame, SameOutcome, Expr.exists_evaluate_iff, Expr.sameOutcome_of_agree,
  Expr.Offends, Expr.OffendsAt, Expr.LeftOf, Expr.FirstOffender, Expr.verdict_evaluate,
  Expr.evaluate_eq_error_iff, Expr.evaluation_blames_first_offender
-/
import SymbolicCalculus.Double
import SymbolicCalculus.Expr.Evaluation
import SymbolicCalculus.Proofs.Expr.Occurrences
import SymbolicCalculus.Proofs.Success

namespace SymbolicCalculus

variable {α : Type}

/-! ### Outcomes -/

/-- Two complaints are of the same kind and about the same name. What they suggest may differ. -/
inductive EvaluationCause.SameBlame : EvaluationCause → EvaluationCause → Prop where
  | undefinedVariable (name : String) (suggestions suggestions' : List String) :
      SameBlame (.undefinedVariable name suggestions) (.undefinedVariable name suggestions')
  | unresolvedIntegral : SameBlame .unresolvedIntegral .unresolvedIntegral
  | unresolvedCall (name : String) : SameBlame (.unresolvedCall name) (.unresolvedCall name)

theorem EvaluationCause.SameBlame.refl : ∀ cause : EvaluationCause, cause.SameBlame cause
  | .undefinedVariable name suggestions => .undefinedVariable name suggestions suggestions
  | .unresolvedIntegral => .unresolvedIntegral
  | .unresolvedCall name => .unresolvedCall name

/-- Two evaluations have the same value, or the same is blamed in both. -/
inductive SameOutcome : Except EvaluationCause α → Except EvaluationCause α → Prop where
  | value (x : α) : SameOutcome (.ok x) (.ok x)
  | blame {cause cause' : EvaluationCause} (same : cause.SameBlame cause') :
      SameOutcome (.error cause) (.error cause')

namespace SameOutcome

theorem refl : ∀ outcome : Except EvaluationCause α, SameOutcome outcome outcome
  | .ok x => .value x
  | .error cause => .blame (.refl cause)

theorem map {outcome outcome' : Except EvaluationCause α} (f : α → α)
    (same : SameOutcome outcome outcome') : SameOutcome (outcome.map f) (outcome'.map f) := by
  cases same with
  | value x => exact .value (f x)
  | blame same => exact .blame same

theorem bind {first first' : Except EvaluationCause α} {f g : α → Except EvaluationCause α}
    (same : SameOutcome first first') (next : ∀ x, SameOutcome (f x) (g x)) :
    SameOutcome (first.bind f) (first'.bind g) := by
  cases same with
  | value x => exact next x
  | blame same => exact .blame same

theorem eq_ok_iff {outcome outcome' : Except EvaluationCause α} {x : α}
    (same : SameOutcome outcome outcome') : outcome = .ok x ↔ outcome' = .ok x := by
  cases same with
  | value => exact Iff.rfl
  | blame => simp

end SameOutcome

namespace Expr

/-! ### Values -/

section Values

variable [Scalar α] {context context' : Context α}

theorem evaluate_neg (operand : Expr α) :
    (neg operand).evaluate context = (operand.evaluate context).map fun x => -x := by
  rw [evaluate]
  cases operand.evaluate context <;> rfl

theorem evaluate_apply (function : Elementary) (operand : Expr α) :
    (apply function operand).evaluate context =
      (operand.evaluate context).map (function.applyIn context.unit) := by
  rw [evaluate]
  cases operand.evaluate context <;> rfl

theorem evaluate_binary (op : BinaryOp) (left right : Expr α) :
    (binary op left right).evaluate context =
      (left.evaluate context).bind fun a => (right.evaluate context).map (op.apply a) := by
  rw [evaluate]
  cases left.evaluate context with
  | error cause => rfl
  | ok a => cases right.evaluate context <;> rfl

/-- An expression without calls has a value in every context that binds its symbols. -/
theorem exists_evaluate_of_bound : ∀ {e : Expr α}, (∀ part ∈ e.postOrder, part.isCall = false) →
    (∀ name ∈ e.symbols, ∃ x, context.get? name = some x) → ∃ value, e.evaluate context = .ok value
  | number value, _, _ => ⟨value, rfl⟩
  | symbol name, _, bound => by
      obtain ⟨x, known⟩ := bound name (List.mem_singleton_self name)
      rw [evaluate, known]
      exact ⟨x, rfl⟩
  | neg operand, calls, bound => by
      obtain ⟨x, inner⟩ := exists_evaluate_of_bound (e := operand)
        (fun part mem => calls part (List.mem_append_left _ mem)) bound
      rw [evaluate_neg, inner]
      exact ⟨_, rfl⟩
  | apply _ operand, calls, bound => by
      obtain ⟨x, inner⟩ := exists_evaluate_of_bound (e := operand)
        (fun part mem => calls part (List.mem_append_left _ mem)) bound
      rw [evaluate_apply, inner]
      exact ⟨_, rfl⟩
  | binary _ left right, calls, bound => by
      obtain ⟨a, first⟩ := exists_evaluate_of_bound (e := left)
        (fun part mem => calls part (List.mem_append_left _ (List.mem_append_left _ mem)))
        (fun name mem => bound name (List.mem_append_left _ mem))
      obtain ⟨b, second⟩ := exists_evaluate_of_bound (e := right)
        (fun part mem => calls part (List.mem_append_left _ (List.mem_append_right _ mem)))
        (fun name mem => bound name (List.mem_append_right _ mem))
      rw [evaluate_binary, first, second]
      exact ⟨_, rfl⟩
  | call _ _, calls, _ => nomatch calls _ (List.mem_append_right _ (List.mem_singleton_self _))

/-- What has a value has no call at any depth, and all its symbols have values. -/
theorem bound_of_evaluate : ∀ {e : Expr α} {value : α}, e.evaluate context = .ok value →
    (∀ part ∈ e.postOrder, part.isCall = false) ∧ ∀ name ∈ e.symbols, ∃ x, context.get? name = some x
  | number _, _, _ => ⟨List.forall_mem_singleton.2 rfl, List.forall_mem_nil _⟩
  | symbol name, _, has => by
      refine ⟨List.forall_mem_singleton.2 rfl, List.forall_mem_singleton.2 ?_⟩
      rw [evaluate] at has
      split at has
      · next x known => exact ⟨x, known⟩
      · cases has
  | neg operand, _, has => by
      rw [evaluate_neg, map_eq_ok_iff] at has
      obtain ⟨x, inner, -⟩ := has
      obtain ⟨calls, bound⟩ := bound_of_evaluate (e := operand) inner
      exact ⟨List.forall_mem_append.2 ⟨calls, List.forall_mem_singleton.2 rfl⟩, bound⟩
  | apply _ operand, _, has => by
      rw [evaluate_apply, map_eq_ok_iff] at has
      obtain ⟨x, inner, -⟩ := has
      obtain ⟨calls, bound⟩ := bound_of_evaluate (e := operand) inner
      exact ⟨List.forall_mem_append.2 ⟨calls, List.forall_mem_singleton.2 rfl⟩, bound⟩
  | binary _ left right, _, has => by
      rw [evaluate_binary, bind_eq_ok_iff] at has
      obtain ⟨a, first, has⟩ := has
      obtain ⟨b, second, -⟩ := map_eq_ok_iff.1 has
      obtain ⟨calls, bound⟩ := bound_of_evaluate first
      obtain ⟨calls', bound'⟩ := bound_of_evaluate second
      exact ⟨List.forall_mem_append.2
        ⟨List.forall_mem_append.2 ⟨calls, calls'⟩, List.forall_mem_singleton.2 rfl⟩,
        List.forall_mem_append.2 ⟨bound, bound'⟩⟩
  | call _ _, _, has => nomatch has

/-- An expression has a value exactly if it has no call and all its free symbols have values. -/
theorem exists_evaluate_iff {e : Expr α} : (∃ value, e.evaluate context = .ok value) ↔
    (∀ part ∈ e.postOrder, part.isCall = false) ∧
      ∀ name ∈ e.freeSymbols, ∃ x, context.get? name = some x := by
  constructor
  · rintro ⟨value, has⟩
    obtain ⟨calls, bound⟩ := bound_of_evaluate has
    exact ⟨calls, fun name free => bound name (mem_freeSymbols.1 free)⟩
  · rintro ⟨calls, bound⟩
    exact exists_evaluate_of_bound calls fun name mem => bound name (mem_freeSymbols.2 mem)

/-- Evaluation looks at nothing of a context but the unit of angles and the values of the symbols. -/
theorem sameOutcome_of_agree (units : context.unit = context'.unit) :
    ∀ {e : Expr α}, (∀ name ∈ e.symbols, context.get? name = context'.get? name) →
      SameOutcome (e.evaluate context) (e.evaluate context')
  | number value, _ => .value value
  | symbol name, agree => by
      rw [evaluate, evaluate, agree name (List.mem_singleton_self name)]
      cases context'.get? name with
      | some x => exact .value x
      | none => exact .blame (.undefinedVariable name _ _)
  | neg operand, agree => by
      rw [evaluate_neg, evaluate_neg]
      exact .map _ (sameOutcome_of_agree units (e := operand) agree)
  | apply _ operand, agree => by
      rw [evaluate_apply, evaluate_apply, units]
      exact .map _ (sameOutcome_of_agree units (e := operand) agree)
  | binary _ _ _, agree => by
      rw [evaluate_binary, evaluate_binary]
      have first := sameOutcome_of_agree units fun name mem => agree name (List.mem_append_left _ mem)
      have second := sameOutcome_of_agree units fun name mem => agree name (List.mem_append_right _ mem)
      exact .bind first fun a => .map _ second
  | call _ _, _ => .refl _

end Values

/-! ### Offenders -/

section Offenders

/-- Why a node has no value, whatever its operands are. -/
inductive Offends (context : Context α) : Expr α → EvaluationCause → Prop where
  | unbound {name : String} (unknown : context.get? name = none) :
      Offends context (symbol name) (.undefinedVariable name (context.similarNames name))
  | integral {arguments : List (Expr α)} :
      Offends context (call integralName arguments) .unresolvedIntegral
  | call {name : String} {arguments : List (Expr α)} (other : name ≠ integralName) :
      Offends context (call name arguments) (.unresolvedCall name)

/-- The node at the place offends, and it is inside of no call. -/
structure OffendsAt (context : Context α) (e : Expr α) (place : List Nat) (cause : EvaluationCause) :
    Prop where
  offends : ∃ node, e.at? place = some node ∧ Offends context node cause
  outside : ∀ above, above <+: place → above ≠ place →
    ∀ node, e.at? above = some node → node.isCall = false

/-- Where the ways to two places part, that to the first one goes on to an operand further to the left. -/
inductive LeftOf : List Nat → List Nat → Prop where
  | parts {index index' : Nat} {rest rest' : List Nat} (before : index < index') :
      LeftOf (index :: rest) (index' :: rest')
  | further {index : Nat} {rest rest' : List Nat} (left : LeftOf rest rest') :
      LeftOf (index :: rest) (index :: rest')

/-- The node at the place offends, and all others that do are to the right of it. -/
structure FirstOffender (context : Context α) (e : Expr α) (place : List Nat) (cause : EvaluationCause) :
    Prop where
  here : OffendsAt context e place cause
  leftmost : ∀ other cause', OffendsAt context e other cause' → other = place ∨ LeftOf place other

/-- Nothing in the expression offends. -/
def Innocent (context : Context α) (e : Expr α) : Prop :=
  ∀ place cause, ¬ OffendsAt context e place cause

variable {context : Context α} {e : Expr α} {cause : EvaluationCause}

theorem Offends.unique {cause' : EvaluationCause} (offends : Offends context e cause)
    (offends' : Offends context e cause') : cause = cause' := by
  cases offends with
  | unbound =>
    cases offends'
    rfl
  | integral =>
    cases offends' with
    | integral => rfl
    | call other => exact absurd rfl other
  | call other =>
    cases offends' with
    | integral => exact absurd rfl other
    | call => rfl

theorem LeftOf.asymm {place place' : List Nat} (left : LeftOf place place') : ¬ LeftOf place' place := by
  induction left with
  | parts before =>
    intro right
    cases right with
    | parts behind => exact Nat.lt_asymm before behind
    | further => exact Nat.lt_irrefl _ before
  | further _ ih =>
    intro right
    cases right with
    | parts behind => exact Nat.lt_irrefl _ behind
    | further right => exact ih right

/-- There is one complaint about the leftmost offender. -/
theorem FirstOffender.unique {place place' : List Nat} {cause' : EvaluationCause}
    (first : FirstOffender context e place cause) (first' : FirstOffender context e place' cause') :
    cause = cause' := by
  have same : place' = place := by
    rcases first.leftmost _ _ first'.here with same | left
    · exact same
    · exact (first'.leftmost _ _ first.here).elim Eq.symm fun right => absurd right left.asymm
  subst same
  obtain ⟨node, found, offends⟩ := first.here.offends
  obtain ⟨node', found', offends'⟩ := first'.here.offends
  cases found.symm.trans found'
  exact offends.unique offends'

theorem offendsAt_nil : OffendsAt context e [] cause ↔ Offends context e cause := by
  constructor
  · rintro ⟨⟨node, found, offends⟩, -⟩
    cases found
    exact offends
  · intro offends
    exact ⟨⟨e, at?_nil e, offends⟩, fun above front other => absurd (List.prefix_nil.1 front) other⟩

theorem offendsAt_cons {index : Nat} {rest : List Nat} :
    OffendsAt context e (index :: rest) cause ↔ e.isCall = false ∧
      ∃ operand, e.operands[index]? = some operand ∧ OffendsAt context operand rest cause := by
  constructor
  · rintro ⟨⟨node, found, offends⟩, outside⟩
    obtain ⟨operand, numbered, found⟩ := at?_cons.1 found
    refine ⟨outside [] List.nil_prefix (List.cons_ne_nil _ _).symm e (at?_nil e), operand, numbered,
      ⟨node, found, offends⟩, fun above front other node' found' => ?_⟩
    exact outside (index :: above) (List.cons_prefix_cons.2 ⟨rfl, front⟩)
      (fun same => other (List.cons.inj same).2) node' (at?_cons.2 ⟨operand, numbered, found'⟩)
  · rintro ⟨noCall, operand, numbered, ⟨node, found, offends⟩, outside⟩
    refine ⟨⟨node, at?_cons.2 ⟨operand, numbered, found⟩, offends⟩, ?_⟩
    rintro (_ | ⟨number, above⟩) front other node' found'
    · cases found'
      exact noCall
    · obtain ⟨same, front'⟩ := List.cons_prefix_cons.1 front
      subst same
      obtain ⟨operand', numbered', found'⟩ := at?_cons.1 found'
      cases numbered.symm.trans numbered'
      exact outside above front' (fun same => other (congrArg _ same)) node' found'

/-- The node is that of an operation which is carried out on the values of its operands. -/
structure Operates (context : Context α) (e : Expr α) : Prop where
  noCall : e.isCall = false
  innocent : ∀ cause, ¬ Offends context e cause

/-- What is no symbol and no call is an operation; a number is one without operands. -/
theorem operates_of_asSymbol? (noCall : e.isCall = false) (noSymbol : e.asSymbol? = none) :
    Operates context e := by
  refine ⟨noCall, fun cause offends => ?_⟩
  cases offends with
  | unbound => cases noSymbol
  | integral | call => cases noCall

theorem Operates.innocent_of_operands (operates : Operates context e)
    (operands : ∀ operand ∈ e.operands, Innocent context operand) : Innocent context e := by
  rintro (_ | ⟨index, rest⟩) cause offends
  · exact operates.innocent cause (offendsAt_nil.1 offends)
  · obtain ⟨-, operand, numbered, offends⟩ := offendsAt_cons.1 offends
    exact operands operand (List.mem_of_getElem? numbered) rest cause offends

/-- A node that offends itself is the only offender: if it is a call, nothing inside of it counts. -/
theorem Offends.firstOffender (offends : Offends context e cause) :
    FirstOffender context e [] cause := by
  refine ⟨offendsAt_nil.2 offends, ?_⟩
  rintro (_ | ⟨index, rest⟩) cause' inside
  · exact .inl rfl
  · obtain ⟨noCall, operand, numbered, -⟩ := offendsAt_cons.1 inside
    cases offends with
    | unbound => cases numbered
    | integral | call => cases noCall

/-- The leftmost offender of an operation is that of the first operand that is not innocent. -/
theorem FirstOffender.of_operand {operand : Expr α} {after : List (Expr α)} {place : List Nat}
    (first : FirstOffender context operand place cause) (operates : Operates context e)
    (before : List (Expr α))
    (parts : e.operands = before ++ operand :: after)
    (innocent : ∀ earlier ∈ before, Innocent context earlier) :
    FirstOffender context e (before.length :: place) cause := by
  have numbered : e.operands[before.length]? = some operand := by
    rw [parts, List.getElem?_append_right (Nat.le_refl _), Nat.sub_self]
    rfl
  refine ⟨offendsAt_cons.2 ⟨operates.noCall, operand, numbered, first.here⟩, ?_⟩
  rintro (_ | ⟨index, rest⟩) cause' offends
  · exact absurd (offendsAt_nil.1 offends) (operates.innocent cause')
  · obtain ⟨-, operand', numbered', offends⟩ := offendsAt_cons.1 offends
    rcases Nat.lt_trichotomy before.length index with later | same | earlier
    · exact .inr (.parts later)
    · subst same
      cases numbered.symm.trans numbered'
      exact (first.leftmost rest cause' offends).imp (congrArg _) .further
    · rw [parts, List.getElem?_append_left earlier] at numbered'
      exact absurd offends (innocent operand' (List.mem_of_getElem? numbered') rest cause')

end Offenders

/-! ### Blame -/

/-- An outcome is what the tree says: a value if nothing offends, and otherwise the complaint about the
    leftmost offender. -/
def Verdict (context : Context α) (e : Expr α) : Except EvaluationCause α → Prop
  | .ok _ => Innocent context e
  | .error cause => ∃ place, FirstOffender context e place cause

/-- An operation on one operand fails with the operand. -/
theorem Verdict.unary {context : Context α} {e operand : Expr α} {outcome : Except EvaluationCause α}
    (inner : Verdict context operand outcome) (f : α → α) (operates : Operates context e)
    (parts : e.operands = [operand]) : Verdict context e (outcome.map f) := by
  cases outcome with
  | ok x =>
    refine operates.innocent_of_operands ?_
    rw [parts]
    exact List.forall_mem_singleton.2 inner
  | error cause =>
    obtain ⟨place, first⟩ := inner
    exact ⟨_, first.of_operand operates [] parts (List.forall_mem_nil _)⟩

/-- An operation on two operands fails with the first, and with the second if the first has a value. -/
theorem Verdict.binary {context : Context α} {e left right : Expr α}
    {first second : Except EvaluationCause α} (leftmost : Verdict context left first)
    (next : Verdict context right second) (f : α → α → α) (operates : Operates context e)
    (parts : e.operands = [left, right]) :
    Verdict context e (first.bind fun a => second.map (f a)) := by
  cases first with
  | error cause =>
    obtain ⟨place, offender⟩ := leftmost
    exact ⟨_, offender.of_operand operates [] parts (List.forall_mem_nil _)⟩
  | ok a =>
    cases second with
    | error cause =>
      obtain ⟨place, offender⟩ := next
      exact ⟨_, offender.of_operand operates [left] parts
        (List.forall_mem_singleton.2 leftmost)⟩
    | ok b =>
      refine operates.innocent_of_operands ?_
      rw [parts]
      exact List.forall_mem_cons.2 ⟨leftmost, List.forall_mem_singleton.2 next⟩

variable [Scalar α] {context : Context α}

/-- By induction on the tree. What holds of the arguments of a call is not needed. -/
theorem verdict_evaluate (e : Expr α) : Verdict context e (e.evaluate context) := by
  induction e using induction_on_operands with
  | step e inner =>
    cases e with
    | number value =>
      exact Operates.innocent_of_operands (operates_of_asSymbol? rfl rfl) (List.forall_mem_nil _)
    | symbol name =>
      rw [evaluate]
      cases known : context.get? name with
      | none => exact ⟨[], (Offends.unbound known).firstOffender⟩
      | some x =>
        refine Operates.innocent_of_operands ⟨rfl, ?_⟩ (List.forall_mem_nil _)
        rintro _ ⟨unknown⟩
        cases known.symm.trans unknown
    | neg operand =>
      rw [evaluate_neg]
      exact (List.forall_mem_singleton.1 inner).unary _ (operates_of_asSymbol? rfl rfl) rfl
    | apply function operand =>
      rw [evaluate_apply]
      exact (List.forall_mem_singleton.1 inner).unary _ (operates_of_asSymbol? rfl rfl) rfl
    | binary op left right =>
      obtain ⟨first, second⟩ := List.forall_mem_cons.1 inner
      rw [List.forall_mem_singleton] at second
      rw [evaluate_binary]
      exact first.binary second op.apply (operates_of_asSymbol? rfl rfl) rfl
    | call name arguments =>
      rw [evaluate, EvaluationCause.ofCall]
      split
      · next integral =>
        subst integral
        exact ⟨[], Offends.integral.firstOffender⟩
      · next other => exact ⟨[], (Offends.call other).firstOffender⟩

/-- Evaluation fails with the complaint about the leftmost offender. -/
theorem evaluate_eq_error_iff {e : Expr α} {cause : EvaluationCause} :
    e.evaluate context = .error cause ↔ ∃ place, FirstOffender context e place cause := by
  have verdict : Verdict context e (e.evaluate context) := verdict_evaluate e
  constructor
  · intro failed
    rwa [failed] at verdict
  · rintro ⟨place, first⟩
    cases outcome : e.evaluate context with
    | ok x =>
      rw [outcome] at verdict
      exact absurd first.here (verdict place cause)
    | error cause' =>
      rw [outcome] at verdict
      obtain ⟨place', first'⟩ := verdict
      rw [first.unique first']

/-- Evaluation succeeds exactly when it can. It does if no call is left in the expression and each of the
    free symbols has a value. It has the same outcome in contexts with the same unit of angles that agree on
    the free symbols. It fails with a complaint if and only if this is the complaint about the leftmost of
    all offenders, which are the symbols without values outside of calls and the calls outside of other
    calls. -/
theorem evaluation_blames_first_offender (e : Expr α) (context : Context α) :
    ((∃ value, e.evaluate context = .ok value) ↔
      (∀ part ∈ e.postOrder, part.isCall = false) ∧
        ∀ name ∈ e.freeSymbols, ∃ x, context.get? name = some x) ∧
    (∀ other : Context α, context.unit = other.unit →
      (∀ name ∈ e.freeSymbols, context.get? name = other.get? name) →
        SameOutcome (e.evaluate context) (e.evaluate other)) ∧
    ∀ cause, e.evaluate context = .error cause ↔
      ∃ place, FirstOffender context e place cause :=
  ⟨exists_evaluate_iff, fun _ units agree =>
    sameOutcome_of_agree units fun name mem => agree name (mem_freeSymbols.2 mem),
    fun _ => evaluate_eq_error_iff⟩

/-- The integral stands behind `y` and hides the `z` inside of it. A value for `yy`, which does not occur,
    makes no difference but in what is suggested. -/
theorem evaluation_blames_first_offender_sum :
    let integral : Expr Double := call integralName [symbol "z", symbol "z"]
    let e : Expr Double := symbol "x" + symbol "y" + integral
    let context : Context Double := Context.empty.set "x" (.ofFloat 1)
    let other : Context Double := context.set "yy" (.ofFloat 2)
    context.unit = other.unit ∧
      (∀ name ∈ e.freeSymbols, context.get? name = other.get? name) ∧
      SameOutcome (e.evaluate context) (e.evaluate other) ∧
      (∃ place, FirstOffender context e place (.undefinedVariable "y" ["x"])) ∧
      ∃ place, FirstOffender other e place (.undefinedVariable "y" ["x", "yy"]) := by
  intro integral e context other
  have agree : ∀ name ∈ e.freeSymbols, context.get? name = other.get? name := by
    intro name free
    refine ((Context.get?_set _ _ _ _).trans (if_neg ?_)).symm
    rintro rfl
    exact absurd free (by decide +kernel)
  obtain ⟨-, congruent, blamed⟩ := evaluation_blames_first_offender e context
  obtain ⟨-, -, blamed'⟩ := evaluation_blames_first_offender e other
  exact ⟨rfl, agree, congruent other rfl agree, (blamed _).1 rfl, (blamed' _).1 rfl⟩

end Expr

end SymbolicCalculus
