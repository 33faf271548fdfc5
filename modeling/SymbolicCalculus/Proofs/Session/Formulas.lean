/-
Module: SymbolicCalculus.Proofs.Session.Formulas
Layer: Proofs
Purpose: What a session answers to a line with a formula. It fails only if the formula cannot be prepared.
  What has been prepared has no call at any depth, so it has a value as soon as all its variables have one,
  and it is asked for its value only then; otherwise it is printed alone.
Main exports: StandsAlone, Command.TakenFor, Command.takenFor_of_parse, Session.answer_of_standsAlone,
  Session.answer_of_not_standsAlone, Session.run_of_unprepared, Session.run_cases,
  Session.run_eq_error_iff, Session.formula_fails_only_unprepared
-/
import SymbolicCalculus.Proofs.Calculus.Preparation
import SymbolicCalculus.Proofs.Session.Fixpoint

namespace SymbolicCalculus

variable {α : Type}

/-- There is nothing to add to the expression: it is a number, or one of its variables has no value. -/
def StandsAlone (context : Context α) (s : Expr α) : Prop :=
  (∃ value, s = .number value) ∨ ∃ name ∈ s.freeSymbols, context.get? name = none

/-- The variables of an expression to which its value is added have values. -/
theorem bound_of_not_standsAlone {context : Context α} {s : Expr α} (more : ¬StandsAlone context s) :
    ∀ name ∈ s.freeSymbols, ∃ x, context.get? name = some x := by
  intro name free
  cases value : context.get? name with
  | none => exact absurd (.inr ⟨name, free, value⟩) more
  | some x => exact ⟨x, rfl⟩

/-- Nothing stands before a whole line. -/
theorem Failure.shift_zero (failure : Failure α) : failure.shift 0 = failure :=
  congrArg (Failure.mk failure.cause) (List.map_id failure.spans)

namespace Command

/-- What a line can be taken for: a formula as a whole, a value for a name that can have one, or another
    command. -/
inductive TakenFor (line : String) : Command → Prop where
  | eval : TakenFor line (.eval ⟨line, 0⟩)
  | assign {name value : Argument} (bindable : isBindable name.text = true) :
      TakenFor line (.assign name value)
  | vars : TakenFor line .vars
  | steps {formula : Argument} : TakenFor line (.steps formula)
  | measure {unit : AngleUnit} : TakenFor line (.measure unit)

variable {line : String} {command : Command}

theorem takenFor_of_parseAssignment {place : Span} {arguments : Argument}
    (parsed : parseAssignment place arguments = .ok command) : TakenFor line command := by
  unfold parseAssignment at parsed
  dsimp only at parsed
  split at parsed
  · cases parsed
  · split_ifs at parsed with empty bindable
    rw [← Except.ok.inj parsed]
    exact .assign bindable

theorem takenFor_of_parse (parsed : parse line = .ok command) : TakenFor line command := by
  unfold parse at parsed
  dsimp only at parsed
  split at parsed
  · split at parsed
    · exact takenFor_of_parseAssignment parsed
    · cases parsed
      exact .vars
    · split at parsed <;> cases parsed
      exact .steps
    · cases parsed
      exact .measure
    · cases parsed
      exact .measure
    · cases parsed
  · cases parsed
    exact .eval

/-- A line that is not a command is a formula as a whole. -/
theorem formula_eq_line {formula : Argument} (parsed : parse line = .ok (.eval formula)) :
    formula = ⟨line, 0⟩ := by
  cases takenFor_of_parse parsed
  rfl

end Command

namespace Session

section Lines

variable [Numeral α] {session : Session α} {context : Context α} {line : String} {formula : Argument}
  {failure : Failure α} {e r s : Expr α}

/-! ### Answers -/

theorem answer_of_standsAlone (alone : StandsAlone context s) : answer context s = .ok s.text := by
  unfold answer
  split
  · rfl
  · next noNumber =>
    obtain ⟨value, rfl⟩ | ⟨name, free, unbound⟩ := alone
    · exact absurd rfl (noNumber value)
    · refine if_neg fun all => ?_
      have bound := List.all_eq_true.1 all name free
      rw [unbound] at bound
      cases bound

/-- The value that is added to an expression without calls can always be found. -/
theorem answer_of_not_standsAlone (calls : s.CallFree) (more : ¬StandsAlone context s) :
    ∃ value, s.evaluate context = .ok value ∧ answer context s = .ok (equation s.text value) := by
  have bound := bound_of_not_standsAlone more
  obtain ⟨value, has⟩ := Expr.exists_evaluate calls fun name mem => bound name (Expr.mem_freeSymbols.2 mem)
  refine ⟨value, has, ?_⟩
  unfold answer
  split
  · next number => exact absurd (.inl ⟨number, rfl⟩) more
  · rw [if_pos (List.all_eq_true.2 fun name free => Option.isSome_iff_exists.2 (bound name free)), has]

/-! ### Lines -/

theorem run_of_unprepared (parsed : Command.parse line = .ok (.eval formula))
    (unprepared : Unprepared true line failure) : session.run line = .error failure := by
  have fails : session.evaluated ⟨line, 0⟩ = .error failure := by
    unfold evaluated prepare
    cases unprepared with
    | unread read => simp only [read, Failure.shift_zero]
    | unresolved read resolved => simp only [read, resolved]
    | unsettled _ read resolved simplified => simp only [read, resolved, simplified]
  rw [run_eval parsed, Command.formula_eq_line parsed, fails]
  rfl

theorem run_of_prepared (parsed : Command.parse line = .ok (.eval formula))
    (read : Expr.parse line = .ok e) (resolved : e.resolve = .ok r) (simplified : r.simplify = .ok s) :
    session.run line = (answer session.context s).map fun text => (text, session) := by
  rw [run_eval parsed, Command.formula_eq_line parsed]
  unfold evaluated prepare
  simp only [read, resolved, simplified]

/-- An expression that has been prepared is answered, alone or with its value. -/
theorem run_cases (session : Session α) (parsed : Command.parse line = .ok (.eval formula))
    (read : Expr.parse line = .ok e) (resolved : e.resolve = .ok r) (simplified : r.simplify = .ok s) :
    (StandsAlone session.context s → session.run line = .ok (s.text, session)) ∧
      (¬StandsAlone session.context s → ∃ value, s.evaluate session.context = .ok value ∧
        session.run line = .ok (equation s.text value, session)) := by
  have calls := (Expr.callFree_of_resolve read resolved).simplify simplified
  rw [run_of_prepared parsed read resolved simplified]
  constructor
  · intro alone
    rw [answer_of_standsAlone alone]
    rfl
  · intro more
    obtain ⟨value, has, answers⟩ := answer_of_not_standsAlone calls more
    refine ⟨value, has, ?_⟩
    rw [answers]
    rfl

theorem run_eq_error_iff (parsed : Command.parse line = .ok (.eval formula)) :
    session.run line = .error failure ↔ Unprepared true line failure := by
  refine ⟨fun failed => ?_, run_of_unprepared parsed⟩
  rcases unprepared_or_prepared α line with ⟨failure', unprepared⟩ | ⟨e, r, s, read, resolved, simplified⟩
  · cases (run_of_unprepared parsed unprepared).symm.trans failed
    exact unprepared
  · obtain ⟨ifAlone, ifMore⟩ := run_cases session parsed read resolved simplified
    by_cases alone : StandsAlone session.context s
    · cases (ifAlone alone).symm.trans failed
    · obtain ⟨value, -, answered⟩ := ifMore alone
      cases answered.symm.trans failed

/-- A line with a formula fails only if the formula cannot be prepared, and then with the reason for that.
    Otherwise it is answered. The answer is the simplified expression alone, if this is a number or has a
    variable without a value; else its value, which it has then, is added. So the line never fails because
    something has no value. -/
theorem formula_fails_only_unprepared (session : Session α)
    (parsed : Command.parse line = .ok (.eval formula)) :
    (∀ failure, session.run line = .error failure ↔ Unprepared true line failure) ∧
    (∀ e r s : Expr α, Expr.parse line = .ok e → e.resolve = .ok r → r.simplify = .ok s →
      (StandsAlone session.context s → session.run line = .ok (s.text, session)) ∧
        (¬StandsAlone session.context s → ∃ value, s.evaluate session.context = .ok value ∧
          session.run line = .ok (equation s.text value, session))) ∧
    ∀ failure, session.run line = .error failure → ∀ cause, failure.cause ≠ .evaluation cause :=
  ⟨fun _ => run_eq_error_iff parsed, fun _ _ _ => run_cases session parsed,
    fun _ failed => ((run_eq_error_iff parsed).1 failed).cause_ne⟩

end Lines

/-- A derivative in which a variable is left. It is answered with its value if the variable has one; the
    absolute value has no derivative. -/
theorem formula_fails_only_unprepared_derivative :
    let session : Session Double := ⟨Context.empty.set "y" (.ofFloat 6)⟩
    session.run "diff(y * x, x)" = .ok ("y = 6", session) ∧
      (start : Session Double).run "diff(y * x, x)" = .ok ("y", start) ∧
      session.run "diff(abs(x), x)" = .error (.ofCalculus (.unsupportedDerivative "abs")) := by
  intro session
  let product : Expr Double := .binary .mul (.symbol "y") (.symbol "x")
  let e : Expr Double := .call derivativeName [product, .symbol "x"]
  let zero : Expr Double := .ofNat 0
  let one : Expr Double := .ofNat 1
  let r : Expr Double := zero * .symbol "x" + .symbol "y" * one
  let f : Expr Double := .call derivativeName [.apply .abs (.symbol "x"), .symbol "x"]
  have x : Token.IsIdentifier "x" := (Token.isIdentifier_iff "x").2 ⟨'x', [], rfl, rfl, by simp⟩
  have y : Token.IsIdentifier "y" := (Token.isIdentifier_iff "y").2 ⟨'y', [], rfl, rfl, by simp⟩
  have read : Expr.parse "diff(y * x, x)" = .ok e := by
    have formed : e.WellFormed := .call rfl (.binary (.symbol ⟨y, rfl⟩) (.symbol ⟨x, rfl⟩)) ⟨x, rfl⟩
    exact formed.printable.parse_text fun value mem => nomatch mem
  have differentiated : product.derivative "x" = .ok r := by
    simp only [product, Expr.derivative_mul, Expr.derivative_symbol]
    rfl
  have resolved : e.resolve = .ok r := by
    simp only [e, product, Expr.resolve_call, Expr.resolveAll_cons, Expr.resolveAll_nil, Expr.resolve_binary,
      Expr.resolve_symbol]
    exact differentiated
  have simplified : r.simplify = .ok (.symbol "y") := rfl
  have parsed : Command.parse "diff(y * x, x)" = .ok (.eval ⟨"diff(y * x, x)", 0⟩) := by decide +kernel
  have read' : Expr.parse "diff(abs(x), x)" = .ok f := by
    have formed : f.WellFormed := .call rfl (.apply (.symbol ⟨x, rfl⟩)) ⟨x, rfl⟩
    exact formed.printable.parse_text fun value mem => nomatch mem
  have resolved' : f.resolve = .error (.unsupportedDerivative "abs") := by
    have unknown : (Expr.apply .abs (.symbol "x") : Expr Double).derivative "x" =
        .error (.unsupportedDerivative "abs") := Expr.derivative_apply _ _ _
    simp only [f, Expr.resolve_call, Expr.resolveAll_cons, Expr.resolveAll_nil, Expr.resolve_apply,
      Expr.resolve_symbol]
    exact unknown
  have parsed' : Command.parse "diff(abs(x), x)" = .ok (.eval ⟨"diff(abs(x), x)", 0⟩) := by
    decide +kernel
  obtain ⟨-, answered, -⟩ := formula_fails_only_unprepared session parsed
  obtain ⟨-, atStart, -⟩ := formula_fails_only_unprepared (start : Session Double) parsed
  obtain ⟨fails, -, -⟩ := formula_fails_only_unprepared session parsed'
  refine ⟨?_, (atStart e r _ read resolved simplified).1 (.inr ⟨"y", List.mem_singleton_self "y", rfl⟩),
    (fails _).2 (.unresolved read' resolved')⟩
  have six : session.context.get? "y" = some (.ofFloat 6) := rfl
  have known : ¬StandsAlone session.context (.symbol "y") := by
    rintro (⟨value, number⟩ | ⟨name, free, unbound⟩)
    · cases number
    · rw [List.mem_singleton.1 free, six] at unbound
      cases unbound
  obtain ⟨value, has, ran⟩ := (answered e r _ read resolved simplified).2 known
  cases has
  exact ran

end Session

end SymbolicCalculus
