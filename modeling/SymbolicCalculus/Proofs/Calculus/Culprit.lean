/-
Module: SymbolicCalculus.Proofs.Calculus.Culprit
Layer: Proofs
Purpose: What a failed integration complains about. The complaint names an expression that contains the
  variable and that no rule of integration fits, so integrating it alone leads to the same complaint. It
  is a part of the integrand, unless something in the integrand is divided by a power: one over a power is
  integrated as the power with the negative exponent, which need not be a part of the integrand.
Main exports: Expr.IsCulprit, Expr.DividesByPower, Expr.Blames, Expr.blames_antiderivative,
  Expr.failed_integration_names_culprit
-/
import SymbolicCalculus.Proofs.Calculus.Failing

namespace SymbolicCalculus.Expr

/-! ### Parts of operands -/

section Parts

variable {α : Type}

/-- Something in the expression is divided by a power. -/
def DividesByPower (e : Expr α) : Prop :=
  ∃ numerator base exponent : Expr α, numerator / base ^ exponent ∈ e.postOrder

/-- The nodes of an operand are nodes of the operation. -/
theorem postOrder_subset_of_mem_operands : ∀ {e part : Expr α}, e.CallFree → part ∈ e.operands →
    part.postOrder ⊆ e.postOrder
  | neg u, part, _, inside => by
      rw [List.mem_singleton.1 inside]
      exact List.subset_append_left _ _
  | apply _ u, part, _, inside => by
      rw [List.mem_singleton.1 inside]
      exact List.subset_append_left _ _
  | binary _ u v, part, _, inside => by
      rcases List.mem_cons.1 inside with rfl | right
      · exact List.subset_append_of_subset_left _ (List.subset_append_left _ _)
      · rw [List.mem_singleton.1 right]
        exact List.subset_append_of_subset_left _ (List.subset_append_right _ _)

end Parts

/-! ### Culprits -/

variable {α : Type} [Scalar α] {var : String} {e : Expr α} {cause : CalculusCause α}

/-- The expression contains the variable, and integrating it leads to the complaint that no rule fits this
    very expression. -/
structure IsCulprit (var : String) (e : Expr α) : Prop where
  depends : e.dependsOn var = true
  failed : e.antiderivative var = .error (.nonIntegrable e)

/-- The complaint is about a culprit, which is a part of the expression unless something in it is divided by
    a power. Or a simplification has not come to rest. -/
inductive Blames (var : String) (e : Expr α) : CalculusCause α → Prop where
  | culprit {part : Expr α} (isCulprit : part.IsCulprit var)
      (inside : ¬ e.DividesByPower → part ∈ e.postOrder) : Blames var e (.nonIntegrable part)
  | passLimit {stuck : Expr α} {limit : PassLimit α} (unsettled : stuck.simplify = .error limit) :
      Blames var e (.passLimit limit)

/-- Whatever is to blame for an operand is to blame for the operation. -/
theorem Blames.of_operand {part : Expr α} (calls : e.CallFree) (inside : part ∈ e.operands)
    (blames : Blames var part cause) : Blames var e cause := by
  have nodes := postOrder_subset_of_mem_operands calls inside
  cases blames with
  | culprit isCulprit within =>
    refine .culprit isCulprit fun whole => nodes (within ?_)
    rintro ⟨numerator, base, exponent, mem⟩
    exact whole ⟨numerator, base, exponent, nodes mem⟩
  | passLimit unsettled => exact .passLimit unsettled

/-- What is to blame for the power that stands for one over a power is to blame for the quotient, wherever
    it stands. -/
theorem Blames.of_reciprocal {numerator base exponent power : Expr α}
    (blames : Blames var power cause) : Blames var (numerator / base ^ exponent) cause := by
  cases blames with
  | culprit isCulprit _ =>
    exact .culprit isCulprit fun whole =>
      absurd ⟨numerator, base, exponent, self_mem_postOrder _⟩ whole
  | passLimit unsettled => exact .passLimit unsettled

/-- By induction on the failure: it starts with a culprit, and each step hands it on. -/
theorem blames_antiderivative (calls : e.CallFree) : FailsFor (Blames var e) (e.antiderivative var) :=
  failing_induction (fun _ depends failed => .culprit ⟨depends, failed⟩ fun _ => self_mem_postOrder _)
    (fun calls inside blames => blames.of_operand calls inside) (fun blames => blames.of_reciprocal)
    (fun unsettled => .passLimit unsettled) calls

/-- If an expression without calls is not integrated, the complaint names an expression that contains the
    variable and that leads, when it is integrated itself, to the complaint that names it. It is a part of
    the integrand if nothing there is divided by a power. Nothing else goes wrong, unless a simplification
    does not come to rest, which is no answer but the end of the program. -/
theorem failed_integration_names_culprit (calls : e.CallFree)
    (failed : e.antiderivative var = .error cause) :
    (∃ part : Expr α, cause = .nonIntegrable part ∧ part.dependsOn var = true ∧
      part.antiderivative var = .error (.nonIntegrable part) ∧
      ((∀ numerator base exponent : Expr α, numerator / base ^ exponent ∉ e.postOrder) →
        part ∈ e.postOrder)) ∨
    ∃ (stuck : Expr α) (limit : PassLimit α), stuck.simplify = .error limit ∧
      cause = .passLimit limit := by
  cases blames_antiderivative calls cause failed with
  | culprit isCulprit inside =>
    refine .inl ⟨_, rfl, isCulprit.depends, isCulprit.failed, fun whole => inside ?_⟩
    rintro ⟨numerator, base, exponent, mem⟩
    exact whole numerator base exponent mem
  | passLimit unsettled => exact .inr ⟨_, _, unsettled, rfl⟩

/-- In `x + x * sin(x)` the product is to blame. -/
theorem failed_integration_names_culprit_product :
    let product : Expr Double := symbol "x" * apply .sin (symbol "x")
    let e : Expr Double := symbol "x" + product
    e.CallFree ∧ e.antiderivative "x" = .error (.nonIntegrable product) ∧
      ∃ part : Expr Double, part = product ∧ part.dependsOn "x" = true ∧
        part.antiderivative "x" = .error (.nonIntegrable part) ∧ part ∈ e.postOrder := by
  intro product e
  have calls : e.CallFree := rfl
  have failedProduct : product.antiderivative "x" = .error (.nonIntegrable product) := by
    rw [show product = binary .mul (symbol "x") (apply .sin (symbol "x")) from rfl,
      antiderivative_mul rfl]
    rfl
  have failed : e.antiderivative "x" = .error (.nonIntegrable product) := by
    rw [show e = binary .add (symbol "x") product from rfl, antiderivative_add rfl,
      antiderivative_symbol, failedProduct]
    rfl
  refine ⟨calls, failed, ?_⟩
  rcases failed_integration_names_culprit calls failed with
    ⟨part, same, depends, fails, inside⟩ | ⟨_, _, _, same⟩
  · cases same
    refine ⟨_, rfl, depends, fails, inside fun numerator base exponent mem => ?_⟩
    simp [e, product, postOrder, mul_def, div_def] at mem
  · cases same

end SymbolicCalculus.Expr
