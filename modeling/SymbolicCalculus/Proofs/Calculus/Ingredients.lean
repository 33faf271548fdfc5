/-
Module: SymbolicCalculus.Proofs.Calculus.Ingredients
Layer: Proofs
Purpose: What the results of the calculus are made of. Differentiation, integration and resolution put
  together what they find with a few whole numbers, with exponents raised by one, and with slopes, which
  are finite and not zero. If these numbers have a property, and all numbers and names in an expression
  have theirs, then all in the results have. The one number that may not have it is an exponent negated
  at once; it never gets into a result, since one is added to it.
Main exports: Request.Keeps, Request.Proper, Request.Stays, Request.madeOf_derivative,
  Request.madeOf_antiderivative, Request.madeOf_resolution, Request.madeOf_outcome
-/
import SymbolicCalculus.Proofs.Calculus.Recursion
import SymbolicCalculus.Proofs.Expr.Ingredients

namespace SymbolicCalculus.Request

open SymbolicCalculus.Expr

variable {α : Type} {Number : α → Prop} {Name : String → Prop}

/-! ### Numbers and requests -/

/-- The expression of a request is made of proper numbers and names. A variable of integration gets into
    the result, and has to be one of the names. -/
def Proper (Number : α → Prop) (Name : String → Prop) : Request α → Prop
  | derivative e _ => e.MadeOf Number Name
  | antiderivative e var => e.MadeOf Number Name ∧ Name var
  | resolution e => e.MadeOf Number Name

theorem proper_ofOperation {operation : Operation} {f : Expr α} {bound : String}
    (made : f.MadeOf Number Name) (fits : Name bound) :
    (ofOperation operation f bound).Proper Number Name := by
  cases operation with
  | integration => exact ⟨made, fits⟩
  | differentiation => exact made

variable [Scalar α]

/-- The property is one of all numbers that the calculus puts into its results. -/
structure Keeps (Number : α → Prop) : Prop extends Rule.Keeps Number where
  two : Number (Scalar.ofNat 2)
  ten : Number (Scalar.ofNat 10)
  threeHalves : Number Elementary.threeHalves
  finite : ∀ value : α, Number value → Scalar.isFinite value = true
  finite_neg : ∀ value : α, Scalar.isFinite value = true → Scalar.isFinite (-value) = true
  raised : ∀ value : α, Scalar.isFinite value = true → Number (value + Scalar.ofNat 1)
  slope : ∀ value : α, Scalar.isFinite value = true → (value == Scalar.ofNat 0) = false →
    Number value

/-- The result of a proper request, if there is one, is made of proper numbers and names. -/
def Stays (Number : α → Prop) (Name : String → Prop) (request : Request α) : Prop :=
  request.Proper Number Name → ∀ result, request.outcome = .ok result → result.MadeOf Number Name

theorem madeOf_overSlope {outer : Expr α} {slope : α} (made : outer.MadeOf Number Name)
    (fits : Number slope) : (outer.overSlope slope).MadeOf Number Name := by
  unfold overSlope
  split
  · exact made
  · exact .binary made (.number fits)

section

variable (keeps : Keeps Number)
include keeps

/-! ### The tables -/

theorem madeOf_ofNat_two : (Expr.ofNat 2 : Expr α).MadeOf Number Name := .number keeps.two

theorem madeOf_square {u : Expr α} (made : u.MadeOf Number Name) :
    (Elementary.square u).MadeOf Number Name := .binary made (madeOf_ofNat_two keeps)

theorem madeOf_oneOver {u : Expr α} (made : u.MadeOf Number Name) :
    (.ofNat 1 / u : Expr α).MadeOf Number Name := .binary (.number keeps.one) made

theorem madeOf_derivativeAt? {function : Elementary} {u outer : Expr α}
    (known : function.derivativeAt? u = some outer) (made : u.MadeOf Number Name) :
    outer.MadeOf Number Name := by
  have square := madeOf_square keeps made
  have root : (apply .sqrt (.ofNat 1 - Elementary.square u)).MadeOf Number Name :=
    .apply (.binary (.number keeps.one) square)
  cases function with
  | sin | sinh | cosh | exp => cases known; exact .apply made
  | cos => cases known; exact .neg (.apply made)
  | tan | tanh => cases known; exact madeOf_oneOver keeps (madeOf_square keeps (.apply made))
  | asin => cases known; exact madeOf_oneOver keeps root
  | acos => cases known; exact .neg (madeOf_oneOver keeps root)
  | atan => cases known; exact madeOf_oneOver keeps (.binary (.number keeps.one) square)
  | ln => cases known; exact madeOf_oneOver keeps made
  | log10 => cases known; exact madeOf_oneOver keeps (.binary made (.apply (.number keeps.ten)))
  | sqrt => cases known; exact madeOf_oneOver keeps (.binary (madeOf_ofNat_two keeps) (.apply made))
  | abs => cases known

theorem madeOf_antiderivativeAt? {function : Elementary} {u outer : Expr α}
    (known : function.antiderivativeAt? u = some outer) (made : u.MadeOf Number Name) :
    outer.MadeOf Number Name := by
  cases function with
  | sin => cases known; exact .neg (.apply made)
  | cos | exp | sinh | cosh => cases known; exact .apply made
  | sqrt =>
    cases known
    exact .binary (.binary made (.number keeps.threeHalves)) (.number keeps.threeHalves)
  | ln => cases known; exact .binary (.binary made (.apply made)) made
  | tan | asin | acos | atan | tanh | log10 | abs => cases known

/-! ### Differentiation -/

theorem madeOf_derivative_binary {op : BinaryOp} {u v result : Expr α} {var : String}
    (stays : ∀ next ∈ askedByDerivative (binary op u v) var, Stays Number Name next)
    (left : u.MadeOf Number Name) (right : v.MadeOf Number Name)
    (done : (binary op u v).derivative var = .ok result) : result.MadeOf Number Name := by
  have madeDu {du : Expr α} (derived : u.derivative var = .ok du) : du.MadeOf Number Name :=
    stays _ (List.mem_cons_self ..) left _ derived
  have madeDv {dv : Expr α} (derived : v.derivative var = .ok dv) : dv.MadeOf Number Name :=
    stays _ (List.mem_cons_of_mem _ (List.mem_singleton_self _)) right _ derived
  cases op with
  | add | sub =>
    rw [derivative_additive (by simp)] at done
    obtain ⟨du, derivedU, done⟩ := bind_eq_ok_iff.1 done
    obtain ⟨dv, derivedV, last⟩ := bind_eq_ok_iff.1 done
    cases last
    exact .binary (madeDu derivedU) (madeDv derivedV)
  | mul =>
    rw [derivative_mul] at done
    obtain ⟨du, derivedU, done⟩ := bind_eq_ok_iff.1 done
    obtain ⟨dv, derivedV, last⟩ := bind_eq_ok_iff.1 done
    cases last
    exact .binary (.binary (madeDu derivedU) right) (.binary left (madeDv derivedV))
  | div =>
    rw [derivative_div] at done
    split at done
    · obtain ⟨du, derivedU, done⟩ := bind_eq_ok_iff.1 done
      obtain ⟨dv, derivedV, last⟩ := bind_eq_ok_iff.1 done
      cases last
      refine .binary (.binary ?_ ?_) (madeOf_square keeps right)
      · exact .binary (madeDu derivedU) right
      · exact .binary left (madeDv derivedV)
    · obtain ⟨du, derivedU, last⟩ := bind_eq_ok_iff.1 done
      cases last
      exact .binary (madeDu derivedU) right
  | pow =>
    have power : (u ^ v).MadeOf Number Name := .binary left right
    rw [derivative_pow] at done
    split at done
    · obtain ⟨du, derivedU, last⟩ := bind_eq_ok_iff.1 done
      cases last
      have less : (v - .ofNat 1).MadeOf Number Name := .binary right (.number keeps.one)
      exact .binary (.binary right (.binary left less)) (madeDu derivedU)
    · split at done
      · obtain ⟨dv, derivedV, last⟩ := bind_eq_ok_iff.1 done
        cases last
        exact .binary (.binary power (.apply left)) (madeDv derivedV)
      · obtain ⟨du, derivedU, done⟩ := bind_eq_ok_iff.1 done
        obtain ⟨dv, derivedV, last⟩ := bind_eq_ok_iff.1 done
        cases last
        refine .binary power (.binary ?_ ?_)
        · exact .binary (madeDv derivedV) (.apply left)
        · exact .binary (.binary right (madeDu derivedU)) left

omit keeps in
/-- The derivative of an integral or of a derivative is that of its own result, if it is not the operand
    itself. -/
theorem madeOf_derivative_call {name bound var : String} {f result : Expr α}
    (stays : ∀ next ∈ askedByDerivative (call name [f, symbol bound]) var, Stays Number Name next)
    (operation : isOperationName name = true) (inner : f.MadeOf Number Name) (fits : Name bound)
    (done : (call name [f, symbol bound]).derivative var = .ok result) :
    result.MadeOf Number Name := by
  obtain ⟨operation, asks⟩ : ∃ operation,
      operation? name [f, symbol bound] = some (operation, f, bound) :=
    operation?_of_isOperationName operation
  unfold askedByDerivative at stays
  simp only [asks] at stays
  have madeG {g : Expr α} (first : (ofOperation operation f bound).outcome = .ok g) :
      g.MadeOf Number Name :=
    stays _ (List.mem_cons_self ..) (proper_ofOperation inner fits) g first
  have again {g : Expr α} (first : (ofOperation operation f bound).outcome = .ok g)
      (second : g.derivative var = .ok result) : result.MadeOf Number Name := by
    refine stays (derivative g var) (List.mem_cons_of_mem _ ?_) (madeG first) result second
    rw [first]
    exact List.mem_singleton_self _
  rw [derivative_call, asks] at done
  cases operation with
  | integration =>
    simp only at done
    split at done
    · cases done
      exact inner
    · obtain ⟨g, first, second⟩ := bind_eq_ok_iff.1 done
      exact again first second
  | differentiation =>
    obtain ⟨g, first, second⟩ := bind_eq_ok_iff.1 done
    exact again first second

/-- A derivative is made of the parts of the expression, their derivatives, and whole numbers. -/
theorem madeOf_derivative {e result : Expr α} {var : String}
    (stays : ∀ next ∈ askedByDerivative e var, Stays Number Name next) (made : e.MadeOf Number Name)
    (done : e.derivative var = .ok result) : result.MadeOf Number Name := by
  cases made with
  | number fits =>
    rw [derivative_number] at done
    cases done
    exact .number keeps.zero
  | symbol fits =>
    rw [derivative_symbol] at done
    split at done
    · cases done
      exact .number keeps.one
    · cases done
      exact .number keeps.zero
  | neg inner =>
    rw [derivative_neg] at done
    obtain ⟨du, derived, last⟩ := bind_eq_ok_iff.1 done
    cases last
    exact .neg (stays _ (List.mem_singleton_self _) inner _ derived)
  | apply inner =>
    rw [derivative_apply] at done
    split at done
    · cases done
    · next outer known =>
      obtain ⟨du, derived, last⟩ := bind_eq_ok_iff.1 done
      cases last
      exact .binary (madeOf_derivativeAt? keeps known inner)
        (stays _ (List.mem_singleton_self _) inner _ derived)
  | binary left right => exact madeOf_derivative_binary keeps stays left right done
  | call operation inner fits => exact madeOf_derivative_call stays operation inner fits done

/-! ### Integration -/

/-- A slope that was found is one, or finite and not zero. -/
theorem number_of_slope? {u : Expr α} {var : String} {slope : α}
    (linear : u.slope? var = .ok (some slope)) : Number slope := by
  rw [slope?_eq] at linear
  split at linear
  · cases linear
    exact keeps.one
  · split at linear
    · cases linear
    · cases linear
    · split at linear
      · cases linear
      · have found := Option.filter_eq_some_iff.1 (Except.ok.inj linear)
        obtain ⟨finite, nonzero⟩ := Bool.and_eq_true_iff.1 found.2
        exact keeps.slope slope finite (Bool.not_eq_true' _ ▸ nonzero)

/-- The number that an expression is, or the negative of the one that is negated, is finite. -/
theorem isFinite_of_asNumber? {w : Expr α} {value : α} (known : w.asNumber? = some value)
    (made : w.MadeOf Number Name) : Scalar.isFinite value = true := by
  unfold asNumber? at known
  split at known
  · cases known
    exact keeps.finite _ (madeOf_number.1 made)
  · cases known
    exact keeps.finite_neg _ (keeps.finite _ (madeOf_number.1 (madeOf_neg.1 made)))
  · cases known

theorem madeOf_raisedExponent {w : Expr α} (made : w.MadeOf Number Name) :
    w.raisedExponent.MadeOf Number Name := by
  unfold raisedExponent
  split
  · next value known => exact .number (keeps.raised value (isFinite_of_asNumber? keeps known made))
  · exact .binary made (.number keeps.one)

omit keeps in
/-- In the antiderivative of a power stands the exponent raised by one, and not the exponent itself. -/
theorem madeOf_powerAntiderivative {u w : Expr α} (made : u.MadeOf Number Name)
    (raised : w.raisedExponent.MadeOf Number Name) : (powerAntiderivative u w).MadeOf Number Name := by
  have quotient : (u ^ w.raisedExponent / w.raisedExponent).MadeOf Number Name :=
    .binary (.binary made raised) raised
  unfold powerAntiderivative
  split
  · split
    · exact .apply made
    · exact quotient
  · exact quotient

omit keeps in
theorem simplify_number (value : α) : (number value).simplify = .ok (number value) := rfl

/-- The antiderivative of a power with a finite number as its exponent, which need not be proper itself. -/
theorem madeOf_antiderivative_power {u result : Expr α} {value : α} {var : String}
    (made : u.MadeOf Number Name) (finite : Scalar.isFinite value = true) (depends : u.dependsOn var = true)
    (done : (binary .pow u (number value)).antiderivative var = .ok result) :
    result.MadeOf Number Name := by
  have depends : (binary .pow u (number value)).dependsOn var = true := by
    simpa [dependsOn, symbols] using depends
  rw [antiderivative_pow depends, simplify_number] at done
  change Except.bind (u.slope? var) _ = _ at done
  obtain ⟨found, linear, last⟩ := bind_eq_ok_iff.1 done
  cases found with
  | none => cases last
  | some slope =>
    cases last
    have raised : (number value).raisedExponent.MadeOf Number Name :=
      .number (keeps.raised value finite)
    exact madeOf_overSlope (madeOf_powerAntiderivative made raised) (number_of_slope? keeps linear)

/-- One over a power leads to the power with the negative exponent, and any other denominator to its
    logarithm. -/
theorem madeOf_reciprocal {numerator denominator result : Expr α} {var : String}
    (power : ∀ base exponent, denominator = binary .pow base exponent →
      Stays Number Name (antiderivative (base ^ exponent.negatedExponent) var))
    (made : denominator.MadeOf Number Name) (fits : Name var) (depends : denominator.dependsOn var = true)
    (done : reciprocal numerator denominator var = .ok result) : result.MadeOf Number Name := by
  have logarithm (other : ∀ u v, denominator = binary .pow u v → v.dependsOn var = true) :
      result.MadeOf Number Name := by
    rw [reciprocal_of_not_pow numerator other] at done
    obtain ⟨found, linear, last⟩ := bind_eq_ok_iff.1 done
    cases found with
    | none => cases last
    | some slope =>
      cases last
      exact madeOf_overSlope (.apply made) (number_of_slope? keeps linear)
  by_cases isPower : ∃ base exponent, denominator = binary .pow base exponent ∧
      exponent.dependsOn var = false
  · obtain ⟨base, exponent, rfl, free⟩ := isPower
    obtain ⟨madeBase, madeExponent⟩ := madeOf_binary.1 made
    have depends : base.dependsOn var = true := by
      simp only [dependsOn, symbols, List.contains_eq_mem, List.mem_append, decide_eq_true_eq,
        decide_eq_false_iff_not] at depends free ⊢
      exact depends.resolve_right free
    rw [reciprocal_pow numerator free] at done
    have stays := power base exponent rfl
    unfold negatedExponent at done stays
    split at done
    · next value known =>
      have finite := keeps.finite_neg _ (isFinite_of_asNumber? keeps known madeExponent)
      exact madeOf_antiderivative_power keeps madeBase finite depends done
    · next known =>
      simp only [known] at stays
      exact stays ⟨.binary madeBase (.neg madeExponent), fits⟩ result done
  · refine logarithm fun u v same => ?_
    cases free : v.dependsOn var with
    | true => rfl
    | false => exact absurd ⟨u, v, same, free⟩ isPower

/-- Two operands of which at least one depends on the variable. -/
theorem madeOf_antiderivative_binary {op : BinaryOp} {u v result : Expr α} {var : String}
    (depends : (binary op u v).dependsOn var = true)
    (stays : ∀ next ∈ askedByAntiderivative (binary op u v) var, Stays Number Name next)
    (left : u.MadeOf Number Name) (right : v.MadeOf Number Name) (fits : Name var)
    (done : (binary op u v).antiderivative var = .ok result) : result.MadeOf Number Name := by
  have madeF {f : Expr α} (integrated : u.antiderivative var = .ok f) : f.MadeOf Number Name :=
    stays (antiderivative u var) (by simp [askedByAntiderivative, operands]) ⟨left, fits⟩ f integrated
  have madeG {g : Expr α} (integrated : v.antiderivative var = .ok g) : g.MadeOf Number Name :=
    stays (antiderivative v var) (by simp [askedByAntiderivative, operands]) ⟨right, fits⟩ g integrated
  cases op with
  | add | sub =>
    rw [antiderivative_additive (by simp) depends] at done
    obtain ⟨f, integratedU, done⟩ := bind_eq_ok_iff.1 done
    obtain ⟨g, integratedV, last⟩ := bind_eq_ok_iff.1 done
    cases last
    exact .binary (madeF integratedU) (madeG integratedV)
  | mul =>
    rw [antiderivative_mul depends] at done
    split at done
    · obtain ⟨g, integratedV, last⟩ := bind_eq_ok_iff.1 done
      cases last
      exact .binary left (madeG integratedV)
    · split at done
      · obtain ⟨f, integratedU, last⟩ := bind_eq_ok_iff.1 done
        cases last
        exact .binary right (madeF integratedU)
      · cases done
  | div =>
    rw [antiderivative_div depends] at done
    split at done
    · obtain ⟨f, integratedU, last⟩ := bind_eq_ok_iff.1 done
      cases last
      exact .binary (madeF integratedU) right
    · next dependsV =>
      split at done
      · obtain ⟨g, found, last⟩ := bind_eq_ok_iff.1 done
        cases last
        have madeG : g.MadeOf Number Name := by
          refine madeOf_reciprocal keeps ?_ right fits (by simpa using dependsV) found
          rintro base exponent rfl
          exact stays _ (List.mem_append_right _ (List.mem_singleton_self _))
        split
        · exact madeG
        · exact .binary left madeG
      · cases done
  | pow =>
    rw [antiderivative_pow depends] at done
    split at done
    · split at done
      · cases done
      · next w simplified =>
        obtain ⟨found, linear, last⟩ := bind_eq_ok_iff.1 done
        cases found with
        | none => cases last
        | some slope =>
          cases last
          have madeW := madeOf_simplify keeps.toKeeps simplified right
          refine madeOf_overSlope ?_ (number_of_slope? keeps linear)
          exact madeOf_powerAntiderivative left (madeOf_raisedExponent keeps madeW)
    · split at done
      · obtain ⟨found, linear, last⟩ := bind_eq_ok_iff.1 done
        cases found with
        | none => cases last
        | some slope =>
          cases last
          refine madeOf_overSlope ?_ (number_of_slope? keeps linear)
          exact .binary (.binary left right) (.apply left)
      · cases done

/-- An antiderivative is made of the parts of the expression, their antiderivatives, the variable, raised
    exponents, slopes, and whole numbers. -/
theorem madeOf_antiderivative {e result : Expr α} {var : String}
    (stays : ∀ next ∈ askedByAntiderivative e var, Stays Number Name next) (made : e.MadeOf Number Name)
    (fits : Name var) (done : e.antiderivative var = .ok result) : result.MadeOf Number Name := by
  cases made with
  | number value =>
    rw [antiderivative_number] at done
    cases done
    exact .binary (.number value) (.symbol fits)
  | symbol name =>
    rw [antiderivative_symbol] at done
    split at done
    · cases done
      exact .binary (madeOf_square keeps (.symbol name)) (madeOf_ofNat_two keeps)
    · cases done
      exact .binary (.symbol name) (.symbol fits)
  | @neg u inner =>
    rw [antiderivative_neg] at done
    split at done
    · cases done
      exact .binary (.neg inner) (.symbol fits)
    · obtain ⟨g, integrated, last⟩ := bind_eq_ok_iff.1 done
      cases last
      exact .neg (stays (antiderivative u var) (by simp [askedByAntiderivative, operands])
        ⟨inner, fits⟩ g integrated)
  | apply inner =>
    rw [antiderivative_apply] at done
    split at done
    · cases done
      exact .binary (.apply inner) (.symbol fits)
    · split at done
      · cases done
      · next outer known =>
        obtain ⟨found, linear, last⟩ := bind_eq_ok_iff.1 done
        cases found with
        | none => cases last
        | some slope =>
          cases last
          exact madeOf_overSlope (madeOf_antiderivativeAt? keeps known inner)
            (number_of_slope? keeps linear)
  | @binary op u v left right =>
    cases depends : (binary op u v).dependsOn var with
    | false =>
      rw [antiderivative_binary_of_not_dependsOn depends] at done
      cases done
      exact .binary (.binary left right) (.symbol fits)
    | true => exact madeOf_antiderivative_binary keeps depends stays left right fits done
  | @call name bound f operation inner fitsBound =>
    rw [antiderivative_call] at done
    obtain ⟨r, resolved, done⟩ := bind_eq_ok_iff.1 done
    have madeR : r.MadeOf Number Name :=
      stays (resolution _) (List.mem_cons_self ..) (.call operation inner fitsBound) r resolved
    split at done
    · cases done
    · next noCall =>
      refine stays (antiderivative r var) (List.mem_cons_of_mem _ ?_) ⟨madeR, fits⟩ result done
      rw [resolved]
      simp [noCall]

/-! ### Resolution -/

omit keeps in
/-- What is left of an expression is made of what is left of its operands, and of the results of the
    operations. -/
theorem madeOf_resolution {e result : Expr α}
    (stays : ∀ next ∈ askedByResolution e, Stays Number Name next) (made : e.MadeOf Number Name)
    (done : e.resolve = .ok result) : result.MadeOf Number Name := by
  have operand {u r : Expr α} (mem : u ∈ e.operands) (made : u.MadeOf Number Name)
      (resolved : u.resolve = .ok r) : r.MadeOf Number Name :=
    stays (resolution u) (List.mem_append_left _ (List.mem_map.2 ⟨u, mem, rfl⟩)) made r resolved
  cases made with
  | number fits =>
    rw [resolve_number] at done
    cases done
    exact .number fits
  | symbol fits =>
    rw [resolve_symbol] at done
    cases done
    exact .symbol fits
  | neg inner =>
    rw [resolve_neg] at done
    obtain ⟨r, resolved, last⟩ := bind_eq_ok_iff.1 done
    cases last
    exact .neg (operand (List.mem_singleton_self _) inner resolved)
  | apply inner =>
    rw [resolve_apply] at done
    obtain ⟨r, resolved, last⟩ := bind_eq_ok_iff.1 done
    cases last
    exact .apply (operand (List.mem_singleton_self _) inner resolved)
  | binary left right =>
    rw [resolve_binary] at done
    obtain ⟨r, resolvedU, done⟩ := bind_eq_ok_iff.1 done
    obtain ⟨s, resolvedV, last⟩ := bind_eq_ok_iff.1 done
    cases last
    exact .binary (operand (List.mem_cons_self ..) left resolvedU)
      (operand (List.mem_cons_of_mem _ (List.mem_singleton_self _)) right resolvedV)
  | @call name bound f operation inner fits =>
    rw [resolve_call] at done
    obtain ⟨resolved, all, done⟩ := bind_eq_ok_iff.1 done
    obtain ⟨r, resolvedF, rfl⟩ : ∃ r, f.resolve = .ok r ∧ [r, symbol bound] = resolved := by
      have all := all
      rw [resolveAll_cons, resolveAll_cons, resolve_symbol, resolveAll_nil] at all
      obtain ⟨r, resolvedF, last⟩ := bind_eq_ok_iff.1 all
      exact ⟨r, resolvedF, Except.ok.inj last⟩
    have madeR : r.MadeOf Number Name := operand (List.mem_cons_self ..) inner resolvedF
    obtain ⟨operation, asks⟩ : ∃ operation,
        operation? name [r, symbol bound] = some (operation, r, bound) :=
      operation?_of_isOperationName operation
    rw [asks] at done
    have last : Stays Number Name (ofOperation operation r bound) := by
      refine stays _ (List.mem_append_right _ ?_)
      simp [all, asks]
    cases operation with
    | integration => exact last ⟨madeR, fits⟩ result done
    | differentiation => exact last madeR result done

/-- The result of every proper request, if there is one, is made of proper numbers and names. -/
theorem madeOf_outcome (request : Request α) : Stays Number Name request := by
  refine (asked_wellFounded (α := α)).induction request fun request stays proper result done => ?_
  cases request with
  | derivative e var => exact madeOf_derivative keeps stays proper done
  | antiderivative e var => exact madeOf_antiderivative keeps stays proper.1 proper.2 done
  | resolution e => exact madeOf_resolution stays proper done

end

end SymbolicCalculus.Request
