/-
Module: SymbolicCalculus.Proofs.Formula.WellTyped
Layer: Proofs
Purpose: Which formulas stand for expressions. A call is well typed if it is an operation of the calculus on
  an operand and a variable, or a known function of one operand; a formula stands for an expression
  exactly if all calls in it, at any depth, are well typed, and the expression is then the formula without
  its parentheses and with the values of its constants. Otherwise some call in it is ill typed, and the
  answer says in which way and where.
Main exports: Formula.IsVariable, Formula.WellTyped, Formula.IllTyped, Formula.erased,
  Formula.toExpr_call_cases, Formula.toExpr_iff_wellTyped
-/
import SymbolicCalculus.Proofs.Expr.RoundTrip
import SymbolicCalculus.Proofs.Formula.Blanks
import SymbolicCalculus.Proofs.Formula.Places

namespace SymbolicCalculus

namespace Formula

variable {α : Type}

/-! ### Calls -/

/-- The formula is a name that belongs to no constant, in any number of parentheses. -/
inductive IsVariable : Formula α → String → Prop where
  | symbol {name : String} {span : Span} (free : isConstantName name = false) :
      IsVariable (.symbol name span) name
  | paren {inner : Formula α} {span : Span} {name : String} (inside : IsVariable inner name) :
      IsVariable (.paren inner span) name

theorem variableName?_eq_some_iff {f : Formula α} {name : String} :
    f.variableName? = some name ↔ IsVariable f name := by
  constructor
  · intro known
    fun_induction innermost f with
    | case1 inner span ih => exact .paren (ih known)
    | case2 f bare =>
      cases f with
      | symbol other span =>
        change (if isConstantName other then none else some other) = some name at known
        split at known
        · cases known
        · next free =>
          cases known
          exact .symbol (Bool.eq_false_iff.2 free)
      | paren inner span => exact absurd rfl (bare inner span)
      | number | call | neg | binary => cases known
  · intro variable_
    induction variable_ with
    | symbol free => simp [variableName?, innermost, free]
    | paren _ ih => exact ih

/-- A call of a name is well typed with these arguments. -/
inductive WellTyped : String → List (Formula α) → Prop where
  | operation {name var : String} {operand by_ : Formula α}
      (operation : isOperationName name = true) (variable_ : IsVariable by_ var) :
      WellTyped name [operand, by_]
  | function {name : String} {function : Elementary} {operand : Formula α}
      (known : Elementary.ofName? name = some function) : WellTyped name [operand]

/-- The formula is a call that is not well typed: the reason, and the region that is at fault. -/
inductive IllTyped : Formula α → Located MeaningCause → Prop where
  | unknown {name : String} {nameSpan parenSpan : Span} {arguments : List (Formula α)}
      (other : isOperationName name = false) (unknown : Elementary.ofName? name = none) :
      IllTyped (.call name nameSpan arguments parenSpan)
        ⟨nameSpan, .unknownFunction name (similarFunctions name)⟩
  | operationArity {name : String} {nameSpan parenSpan : Span} {arguments : List (Formula α)}
      (operation : isOperationName name = true) (wrong : arguments.length ≠ 2) :
      IllTyped (.call name nameSpan arguments parenSpan)
        ⟨nameSpan.cover parenSpan, .wrongArity name 2 arguments.length⟩
  | functionArity {name : String} {function : Elementary} {nameSpan parenSpan : Span}
      {arguments : List (Formula α)} (known : Elementary.ofName? name = some function)
      (wrong : arguments.length ≠ 1) :
      IllTyped (.call name nameSpan arguments parenSpan)
        ⟨nameSpan.cover parenSpan, .wrongArity name 1 arguments.length⟩
  | notVariable {name : String} {nameSpan parenSpan : Span} {operand by_ : Formula α}
      (operation : isOperationName name = true) (other : ∀ var, ¬ IsVariable by_ var) :
      IllTyped (.call name nameSpan [operand, by_] parenSpan) ⟨by_.span, .expectedVariable name⟩

/-- No function has the name of an operation. -/
theorem ofName?_of_isOperationName {name : String} (operation : isOperationName name = true) :
    Elementary.ofName? name = none := by
  simp only [isOperationName, Bool.or_eq_true, beq_iff_eq] at operation
  rcases operation with rfl | rfl <;> decide

theorem IllTyped.exists_call {part : Formula α} {fault : Located MeaningCause}
    (ill : IllTyped part fault) :
    ∃ name nameSpan arguments parenSpan, part = .call name nameSpan arguments parenSpan := by
  cases ill <;> exact ⟨_, _, _, _, rfl⟩

/-- A call that is ill typed is not well typed. -/
theorem IllTyped.not_wellTyped {name : String} {nameSpan parenSpan : Span}
    {arguments : List (Formula α)} {fault : Located MeaningCause}
    (ill : IllTyped (.call name nameSpan arguments parenSpan) fault) : ¬ WellTyped name arguments := by
  intro well
  cases ill with
  | unknown other unknown =>
    cases well with
    | operation operation => exact Bool.false_ne_true (other.symm.trans operation)
    | function known => cases unknown.symm.trans known
  | operationArity operation wrong =>
    cases well with
    | operation => exact wrong rfl
    | function known => cases (ofName?_of_isOperationName operation).symm.trans known
  | functionArity known wrong =>
    cases well with
    | operation operation => cases (ofName?_of_isOperationName operation).symm.trans known
    | function => exact wrong rfl
  | notVariable operation other =>
    cases well with
    | operation _ variable_ => exact other _ variable_

/-! ### Formulas without parentheses -/

section Meanings

variable [Scalar α]

mutual

/-- The formula without its parentheses, its constants replaced by their values and the names of functions
    by the functions. -/
def erased : Formula α → Expr α
  | number value _ => .number value
  | symbol name _ =>
      match namedConstant? name with
      | some value => .number value
      | none => .symbol name
  | paren inner _ => inner.erased
  | neg operand _ => .neg operand.erased
  | binary op _ left right => .binary op left.erased right.erased
  | call name _ arguments _ =>
      match Elementary.ofName? name, erasedAll arguments with
      | some function, [operand] => .apply function operand
      | _, operands => .call name operands

/-- A row of formulas without their parentheses. -/
def erasedAll : List (Formula α) → List (Expr α)
  | [] => []
  | first :: others => first.erased :: erasedAll others

end

theorem erased_of_isVariable {f : Formula α} {var : String} (variable_ : IsVariable f var) :
    f.erased = .symbol var := by
  induction variable_ with
  | symbol free => rw [erased, Grammar.namedConstant?_of_free free]
  | paren _ ih => exact ih

theorem erased_function {name : String} {function : Elementary} {operand : Formula α}
    {nameSpan parenSpan : Span} (known : Elementary.ofName? name = some function) :
    (call name nameSpan [operand] parenSpan).erased = .apply function operand.erased := by
  simp only [erased, erasedAll, known]

theorem erased_operation {name var : String} {operand by_ : Formula α} {nameSpan parenSpan : Span}
    (operation : isOperationName name = true) (variable_ : IsVariable by_ var) :
    (call name nameSpan [operand, by_] parenSpan).erased =
      .call name [operand.erased, .symbol var] := by
  simp only [erased, erasedAll, ofName?_of_isOperationName operation,
    erased_of_isVariable variable_]

/-! ### What a call stands for -/

/-- A call is an operation or a function and stands for it on what its operand stands for, or it is ill
    typed, and that is the answer. -/
theorem toExpr_call_cases (name : String) (nameSpan : Span) (arguments : List (Formula α))
    (parenSpan : Span) :
    (∃ operand by_ var, arguments = [operand, by_] ∧ isOperationName name = true ∧
      IsVariable by_ var ∧ (call name nameSpan arguments parenSpan).toExpr =
        operand.toExpr.map fun e => .call name [e, .symbol var]) ∨
    (∃ operand function, arguments = [operand] ∧ Elementary.ofName? name = some function ∧
      (call name nameSpan arguments parenSpan).toExpr = operand.toExpr.map (.apply function)) ∨
    ∃ fault, IllTyped (call name nameSpan arguments parenSpan) fault ∧
      (call name nameSpan arguments parenSpan).toExpr = .error fault := by
  by_cases operation : isOperationName name = true
  · by_cases two : arguments.length = 2
    · obtain ⟨operand, by_, rfl⟩ := List.length_eq_two.1 two
      cases known : by_.variableName? with
      | none =>
        refine .inr (.inr ⟨_, .notVariable operation fun var variable_ => ?_,
          by rw [toExpr_operation operation, known]⟩)
        rw [variableName?_eq_some_iff.2 variable_] at known
        cases known
      | some var =>
        exact .inl ⟨operand, by_, var, rfl, operation, variableName?_eq_some_iff.1 known,
          by rw [toExpr_operation operation, known]⟩
    · exact .inr (.inr ⟨_, .operationArity operation two, toExpr_operation_arity operation two⟩)
  · cases known : Elementary.ofName? name with
    | none =>
      exact .inr (.inr ⟨_, .unknown (Bool.eq_false_iff.2 operation) known,
        toExpr_unknown operation known⟩)
    | some function =>
      by_cases one : arguments.length = 1
      · obtain ⟨operand, rfl⟩ := List.length_eq_one_iff.1 one
        exact .inr (.inl ⟨operand, function, rfl, rfl, toExpr_function operation known operand⟩)
      · exact .inr (.inr ⟨_, .functionArity known one, toExpr_function_arity operation known one⟩)

/-! ### What a formula stands for -/

/-- All calls in the formula are well typed. -/
def CallsWellTyped (f : Formula α) : Prop :=
  ∀ (name : String) (nameSpan : Span) (arguments : List (Formula α)) (parenSpan : Span),
    (call name nameSpan arguments parenSpan).IsPartOf f → WellTyped name arguments

omit [Scalar α] in
theorem callsWellTyped_of_isVariable {f : Formula α} {var : String} (variable_ : IsVariable f var) :
    f.CallsWellTyped := by
  intro name nameSpan arguments parenSpan within
  induction variable_ with
  | symbol => cases within
  | paren _ ih =>
    cases within with
    | paren inside => exact ih inside

omit [Scalar α] in
theorem callsWellTyped_call {name : String} {nameSpan parenSpan : Span}
    {arguments : List (Formula α)} (well : WellTyped name arguments)
    (each : ∀ argument ∈ arguments, argument.CallsWellTyped) :
    (call name nameSpan arguments parenSpan).CallsWellTyped := by
  intro name' nameSpan' arguments' parenSpan' within
  cases within with
  | refl => exact well
  | argument mem inside => exact each _ mem _ _ _ _ inside

/-- The answer to what a formula stands for is founded: an expression is the formula without parentheses,
    and all calls are well typed; a fault is that of a call in the formula. -/
def Founded (f : Formula α) : Except (Located MeaningCause) (Expr α) → Prop
  | .ok e => e = f.erased ∧ f.CallsWellTyped
  | .error fault => ∃ part : Formula α, part.IsPartOf f ∧ IllTyped part fault

/-- The faults of a part are faults of the whole. -/
theorem Founded.map {f operand : Formula α} {answer : Except (Located MeaningCause) (Expr α)}
    {make : Expr α → Expr α} (founded : Founded operand answer)
    (within : ∀ part : Formula α, part.IsPartOf operand → part.IsPartOf f)
    (made : make operand.erased = f.erased) (well : operand.CallsWellTyped → f.CallsWellTyped) :
    Founded f (answer.map make) := by
  cases answer with
  | ok e =>
    obtain ⟨rfl, calls⟩ := founded
    exact ⟨made, well calls⟩
  | error fault =>
    obtain ⟨part, inside, ill⟩ := founded
    exact ⟨part, within part inside, ill⟩

/-- By recursion on the formula, a call by the cases of what it can stand for. -/
theorem founded_toExpr : ∀ f : Formula α, Founded f f.toExpr
  | number _ _ => ⟨rfl, fun _ _ _ _ => nofun⟩
  | symbol _ _ => ⟨rfl, fun _ _ _ _ => nofun⟩
  | paren inner span => by
    have same : (paren inner span).toExpr = inner.toExpr.map id := by
      rw [toExpr]
      cases inner.toExpr <;> rfl
    rw [same]
    refine (founded_toExpr inner).map (fun _ => .paren) rfl fun calls _ _ _ _ within => ?_
    cases within with
    | paren inside => exact calls _ _ _ _ inside
  | neg operand signSpan => by
    rw [toExpr_neg]
    refine (founded_toExpr operand).map (fun _ => .operand) rfl fun calls _ _ _ _ within => ?_
    cases within with
    | operand inside => exact calls _ _ _ _ inside
  | binary op opSpan left right => by
    have first := founded_toExpr left
    rw [toExpr_binary]
    cases meaning : left.toExpr with
    | error fault =>
      rw [meaning] at first
      obtain ⟨part, inside, ill⟩ := first
      exact ⟨part, .left inside, ill⟩
    | ok l =>
      rw [meaning] at first
      obtain ⟨rfl, calls⟩ := first
      refine (founded_toExpr right).map (fun _ => .right) rfl fun calls' _ _ _ _ within => ?_
      cases within with
      | left inside => exact calls _ _ _ _ inside
      | right inside => exact calls' _ _ _ _ inside
  | call name nameSpan arguments parenSpan => by
    rcases toExpr_call_cases name nameSpan arguments parenSpan with
      ⟨operand, by_, var, rfl, operation, variable_, meaning⟩ |
      ⟨operand, function, rfl, known, meaning⟩ | ⟨fault, ill, meaning⟩
    · rw [meaning]
      refine (founded_toExpr operand).map (fun _ => .argument (List.mem_cons_self ..))
        (erased_operation operation variable_).symm fun calls =>
          callsWellTyped_call (.operation operation variable_) (List.forall_mem_cons.2 ⟨calls, ?_⟩)
      exact List.forall_mem_singleton.2 (callsWellTyped_of_isVariable variable_)
    · rw [meaning]
      exact (founded_toExpr operand).map (fun _ => .argument (List.mem_cons_self ..))
        (erased_function known).symm fun calls =>
          callsWellTyped_call (.function known) (List.forall_mem_singleton.2 calls)
    · rw [meaning]
      exact ⟨_, .refl _, ill⟩

/-- A formula stands for an expression exactly if every call in it is an operation on an operand and a
    variable or a known function of one operand. The expression is then the formula without its
    parentheses and with the values of its constants; and if there is none, the answer is the fault of
    some call in the formula, found where that call breaks the rule. -/
theorem toExpr_iff_wellTyped (f : Formula α) :
    ((∃ e, f.toExpr = .ok e) ↔
      ∀ (name : String) (nameSpan : Span) (arguments : List (Formula α)) (parenSpan : Span),
        (call name nameSpan arguments parenSpan).IsPartOf f → WellTyped name arguments) ∧
    (∀ e, f.toExpr = .ok e → e = f.erased) ∧
    ∀ fault, f.toExpr = .error fault → ∃ part : Formula α, part.IsPartOf f ∧ IllTyped part fault := by
  have founded := founded_toExpr f
  cases meaning : f.toExpr with
  | ok e =>
    rw [meaning] at founded
    refine ⟨⟨fun _ => founded.2, fun _ => ⟨e, rfl⟩⟩, ?_, nofun⟩
    rintro _ ⟨⟩
    exact founded.1
  | error fault =>
    rw [meaning] at founded
    refine ⟨⟨nofun, fun well => ?_⟩, nofun, ?_⟩
    · obtain ⟨part, within, ill⟩ := founded
      obtain ⟨name, nameSpan, arguments, parenSpan, rfl⟩ := ill.exists_call
      exact absurd (well _ _ _ _ within) ill.not_wellTyped
    · rintro _ ⟨⟩
      exact founded

/-- In `sin(int(x, (pi)))` the call of `int` is ill typed, as a constant is no variable in parentheses
    either, and the region at fault is that of its second argument. -/
theorem toExpr_iff_wellTyped_constant :
    (call "sin" ⟨0, 3⟩ [call "int" ⟨4, 7⟩ [symbol "x" ⟨8, 9⟩, paren (symbol "pi" ⟨12, 14⟩) ⟨11, 15⟩]
      ⟨7, 16⟩] ⟨3, 17⟩ : Formula Double).toExpr = .error ⟨⟨11, 15⟩, .expectedVariable "int"⟩ ∧
    ∃ part : Formula Double, part.IsPartOf (call "sin" ⟨0, 3⟩ [call "int" ⟨4, 7⟩ [symbol "x" ⟨8, 9⟩,
        paren (symbol "pi" ⟨12, 14⟩) ⟨11, 15⟩] ⟨7, 16⟩] ⟨3, 17⟩) ∧
      IllTyped part ⟨⟨11, 15⟩, .expectedVariable "int"⟩ := by
  have meaning : (call "sin" ⟨0, 3⟩ [call "int" ⟨4, 7⟩ [symbol "x" ⟨8, 9⟩,
      paren (symbol "pi" ⟨12, 14⟩) ⟨11, 15⟩] ⟨7, 16⟩] ⟨3, 17⟩ : Formula Double).toExpr =
        .error ⟨⟨11, 15⟩, .expectedVariable "int"⟩ := by
    rfl
  exact ⟨meaning, (toExpr_iff_wellTyped _).2.2 _ meaning⟩

end Meanings

end Formula

end SymbolicCalculus
