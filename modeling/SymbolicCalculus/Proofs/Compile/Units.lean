/-
Module: SymbolicCalculus.Proofs.Compile.Units
Layer: Proofs
Purpose: Simplifying before a function is made, and the unit of angles. The rules do not ask for the unit: a
  function of a number is folded with angles in radians, whatever the unit of the function that is made.
  With angles in radians simplification changes no value where the function is defined. In another unit
  this takes that the functions folded on the way have the same values there, and where one has not, the
  values differ: the cosine of half a turn in radians is folded to minus one, and it is not that in degrees.
Main exports: Compiled.simplified_function_agrees, Compiled.simplified_function_differs
-/
import SymbolicCalculus.Proofs.Calculus.Resolution
import SymbolicCalculus.Proofs.Compile.Agreement
import SymbolicCalculus.Proofs.Exact.Reading
import SymbolicCalculus.Proofs.Simplify.Meaning
import SymbolicCalculus.Proofs.Simplify.Restoration

namespace SymbolicCalculus

open Exact SymbolicCalculus.Expr

namespace Expr

/-! ### Folded functions -/

/-- A function of a number is folded if its value is whole. -/
theorem pass_apply_of_whole {function : Elementary} {operand : Expr Exact} {value : Exact} {n : ℤ}
    (inner : operand.pass.1 = .number value) (whole : Scalar.apply function value = real n) :
    (apply function operand).pass.1 = .number (real n) := by
  have isWhole : Scalar.isWhole (real (n : ℝ)) = true := (holds_real_iff _ _).2 ⟨n, rfl⟩
  have isFinite : Scalar.isFinite (real (n : ℝ)) = true := (holds_real_iff _ _).2 trivial
  have folds : Rule.fold? (.apply function (.number value)) = some (.number (real (n : ℝ))) := by
    simp only [Rule.fold?, whole, isWhole, if_true, Rule.finite?, isFinite, Rule.computed_real]
  rw [pass, inner, finish, firstRule?_of_fold? folds]

/-- The cosine of an angle in degrees. -/
theorem cos_applyIn_degrees (angle : ℝ) :
    Elementary.cos.applyIn .degrees (real angle) = real (Real.cos (angle * (Real.pi / 180))) := by
  have degree : (Scalar.pi / Scalar.ofNat 180 : Exact) = real (Real.pi / 180) :=
    realIf_eq_real_iff.2 ⟨by norm_num [OperationDomain], by norm_num [operationValue]⟩
  change Scalar.apply Elementary.cos (real angle * (Scalar.pi / Scalar.ofNat 180)) = _
  rw [degree, mul_real]
  exact function_eq_real_iff.2 ⟨_, rfl, trivial, rfl⟩

end Expr

namespace Compiled

/-! ### With and without simplification -/

/-- The value of the function is what its expression means where the variable alone has a value. -/
theorem function_eq_of_means {text var : String} {options : CompileOptions} {compiled : Compiled Exact}
    (made : ofText text var options = .ok compiled) {x y : ℝ}
    (means : compiled.expr.Means (compiled.contextAt options.unit (real x)) y) :
    compiled.function (real x) = real y := by
  obtain ⟨sameVar, -, only, makes⟩ := origin_of_ofText made
  have value : compiled.expr.evaluate (compiled.contextAt options.unit (real x)) =
      .ok (compiled.function (real x)) := by
    refine evaluate_of_function makes fun name mem => ?_
    rw [only name mem, ← sameVar]
    exact get?_contextAt compiled options.unit (real x)
  exact Except.ok.inj (value.symm.trans means)

/-- Simplifying first changes no value of a function made from a text, at any argument where all parts of
    the expression have values. Angles are in radians, or the functions that simplification folds have the
    same values with angles in the unit. -/
theorem simplified_function_agrees {text var : String} {unit : AngleUnit}
    {plain simplified : Compiled Exact}
    (made : ofText text var { simplify := false, unit := unit } = .ok plain)
    (made' : ofText text var { simplify := true, unit := unit } = .ok simplified)
    (folds : unit = .radians ∨ plain.expr.FoldsIn unit) (x : ℝ)
    (defined : plain.expr.DefinedThroughout (plain.contextAt unit (real x))) :
    simplified.function (real x) = plain.function (real x) := by
  obtain ⟨y, means⟩ := defined _ (self_mem_postOrder _)
  have allFolds : plain.expr.FoldsIn (plain.contextAt unit (real x)).unit := by
    rcases folds with rfl | folds
    · exact fun _ node _ => Rule.foldsIn_radians node
    · exact folds
  have simplifies : plain.expr.simplify = .ok simplified.expr := by
    obtain ⟨-, ⟨read, resolved, parsed, resolves, rfl⟩, -⟩ := origin_of_ofText made
    obtain ⟨-, ⟨read', resolved', parsed', resolves', simplifies⟩, -⟩ := origin_of_ofText made'
    cases parsed.symm.trans parsed'
    cases resolves.symm.trans resolves'
    exact simplifies
  have sameContext : simplified.contextAt unit (real x) = plain.contextAt unit (real x) := by
    rw [contextAt, contextAt, (origin_of_ofText made).1, (origin_of_ofText made').1]
  have means' : simplified.expr.Means (simplified.contextAt unit (real x)) y := by
    obtain ⟨settled, settles, same⟩ := settle_of_simplify simplifies
    rw [sameContext, ← same]
    exact (means_settle_of_foldsIn allFolds means).1 settled settles
  rw [function_eq_of_means made means, function_eq_of_means made' means']

/-! ### Functions made in degrees -/

/-- A text without calls of the calculus is made into a function of what it is read as. -/
theorem ofText_plain {text var : String} {unit : AngleUnit} {e : Expr Exact} {f : Exact → Exact}
    (read : Expr.parse text = .ok e) (calls : e.callDepth = 0)
    (only : e.freeSymbols.find? (· != var) = none) (makes : e.function unit = .ok f) :
    ofText text var { simplify := false, unit := unit } = .ok ⟨e, var, f⟩ := by
  rw [ofText, prepare, read]
  simp only [resolve_of_callDepth calls, Bool.false_eq_true, if_false, only, makes]

/-- And of what that is simplified to, if it is to be simplified. -/
theorem ofText_simplified {text var : String} {unit : AngleUnit} {e result : Expr Exact}
    {f : Exact → Exact} (read : Expr.parse text = .ok e) (calls : e.callDepth = 0)
    (simplifies : e.simplify = .ok result) (only : result.freeSymbols.find? (· != var) = none)
    (makes : result.function unit = .ok f) :
    ofText text var { simplify := true, unit := unit } = .ok ⟨result, var, f⟩ := by
  rw [ofText, prepare, read]
  simp only [resolve_of_callDepth calls, if_true, simplifies, only, makes]

/-- The cosine of `x - x` in degrees: the cosine of zero is folded, and it is one in any unit. -/
theorem simplified_function_agrees_cosine :
    ∃ plain simplified : Compiled Exact,
      ofText "cos(x - x)" "x" { simplify := false, unit := .degrees } = .ok plain ∧
      ofText "cos(x - x)" "x" { simplify := true, unit := .degrees } = .ok simplified ∧
      plain.expr.FoldsIn .degrees ∧
      plain.expr.DefinedThroughout (plain.contextAt .degrees (real 2)) ∧
      simplified.function (real 2) = plain.function (real 2) := by
  let e : Expr Exact := .apply .cos (.binary .sub (.symbol "x") (.symbol "x"))
  have x : Token.IsIdentifier "x" := (Token.isIdentifier_iff "x").2 ⟨'x', [], rfl, rfl, by simp⟩
  have printable : e.Printable := .apply (.binary (.symbol x rfl) (.symbol x rfl))
  have read : Expr.parse "cos(x - x)" = .ok e := printable.parse_text fun value mem => nomatch mem
  have difference : (binary .sub (symbol "x") (symbol "x") : Expr Exact).pass.1 = ofNat 0 := rfl
  have atZero : Scalar.apply .cos (Scalar.ofNat 0 : Exact) = real ((1 : ℤ) : ℝ) :=
    function_eq_real_iff.2 ⟨_, rfl, trivial, by simp [functionValue]⟩
  have folded : e.pass.1 = .number (real ((1 : ℤ) : ℝ)) := pass_apply_of_whole difference atZero
  let plain : Compiled Exact :=
    ⟨e, "x", fun x => Elementary.cos.applyIn .degrees (BinaryOp.sub.apply x x)⟩
  have made : ofText "cos(x - x)" "x" { simplify := false, unit := .degrees } = .ok plain :=
    ofText_plain read rfl rfl rfl
  have made' : ofText "cos(x - x)" "x" { simplify := true, unit := .degrees } =
      .ok ⟨.number (real ((1 : ℤ) : ℝ)), "x", fun _ => real ((1 : ℤ) : ℝ)⟩ :=
    ofText_simplified read rfl (simplify_of_pass folded (atRest_number _)) rfl rfl
  have folds : e.FoldsIn .degrees := by
    intro passes node mem function value same whole
    cases passes with
    | zero =>
      rw [afterPasses] at mem
      simp only [e, visited, difference, List.mem_append, List.mem_singleton] at mem
      rcases mem with ((rfl | rfl) | rfl) | rfl
      · cases same
      · cases same
      · cases same
      · cases same
        rw [atZero, ofNat_eq, cos_applyIn_degrees]
        simp
    | succ passes =>
      rw [afterPasses_of_pass folded (atRest_number _), visited, List.mem_singleton] at mem
      rw [mem] at same
      cases same
  have defined : plain.expr.DefinedThroughout (plain.contextAt .degrees (real 2)) := by
    have argument : (symbol "x").Means (plain.contextAt .degrees (real 2)) 2 :=
      means_symbol.2 (get?_contextAt plain .degrees (real 2))
    have zero : (binary .sub (symbol "x") (symbol "x")).Means (plain.contextAt .degrees (real 2)) 0 :=
      means_binary.2 ⟨2, 2, argument, argument, trivial, sub_self 2⟩
    intro part mem
    simp only [plain, e, postOrder, List.mem_append, List.mem_singleton] at mem
    rcases mem with ((rfl | rfl) | rfl) | rfl
    · exact ⟨_, argument⟩
    · exact ⟨_, argument⟩
    · exact ⟨_, zero⟩
    · exact ⟨_, means_applyIn.2 ⟨_, zero, cos_applyIn_degrees 0⟩⟩
  exact ⟨plain, _, made, made', folds, defined,
    simplified_function_agrees made made' (.inr folds) 2 defined⟩

/-- The cosine of `pi` in degrees: simplified first it is the cosine in radians, minus one, and without
    simplification it is the cosine of about three degrees. -/
theorem simplified_function_differs :
    ∃ plain simplified : Compiled Exact,
      ofText "cos(pi)" "x" { simplify := false, unit := .degrees } = .ok plain ∧
      ofText "cos(pi)" "x" { simplify := true, unit := .degrees } = .ok simplified ∧
      plain.expr.DefinedThroughout (plain.contextAt .degrees (real 1)) ∧
      simplified.function (real 1) = real (-1) ∧
      plain.function (real 1) = real (Real.cos (Real.pi * (Real.pi / 180))) ∧
      simplified.function (real 1) ≠ plain.function (real 1) := by
  let e : Expr Exact := .apply .cos (.number Scalar.pi)
  have pi : Token.IsIdentifier "pi" :=
    (Token.isIdentifier_iff "pi").2 ⟨'p', ['i'], rfl, rfl, List.all_eq_true.1 (by decide)⟩
  have read : Expr.parse "cos(pi)" = .ok e := ((Grammar.Reads.constant pi rfl).apply .cos).parse
  have number_ : (number Scalar.pi : Expr Exact).pass.1 = .number Scalar.pi := rfl
  have atPi : Scalar.apply .cos (Scalar.pi : Exact) = real ((-1 : ℤ) : ℝ) :=
    function_eq_real_iff.2 ⟨_, rfl, trivial, by simp [functionValue]⟩
  have folded : e.pass.1 = .number (real ((-1 : ℤ) : ℝ)) := pass_apply_of_whole number_ atPi
  let plain : Compiled Exact := ⟨e, "x", fun _ => Elementary.cos.applyIn .degrees Scalar.pi⟩
  let simplified : Compiled Exact :=
    ⟨.number (real ((-1 : ℤ) : ℝ)), "x", fun _ => real ((-1 : ℤ) : ℝ)⟩
  have minusOne : simplified.function (real 1) = real (-1) := by simp [simplified]
  have inDegrees : plain.function (real 1) = real (Real.cos (Real.pi * (Real.pi / 180))) :=
    cos_applyIn_degrees Real.pi
  refine ⟨plain, simplified, ofText_plain read rfl rfl rfl,
    ofText_simplified read rfl (simplify_of_pass folded (atRest_number _)) rfl rfl, ?_, minusOne,
    inDegrees, ?_⟩
  · intro part mem
    rcases List.mem_cons.1 mem with rfl | mem
    · exact ⟨_, means_number.2 rfl⟩
    · rw [List.mem_singleton.1 mem]
      exact ⟨_, means_applyIn.2 ⟨_, means_number.2 rfl, cos_applyIn_degrees _⟩⟩
  · -- the angle is less than half a turn, where the cosine is greater than minus one
    have small : Real.pi * (Real.pi / 180) < Real.pi := by
      have bound := Real.pi_lt_four
      have positive := Real.pi_pos
      nlinarith
    rw [minusOne, inDegrees]
    intro same
    have same := Exact.real.inj same
    have greater := Real.cos_lt_cos_of_nonneg_of_le_pi (by positivity) le_rfl small
    rw [Real.cos_pi] at greater
    exact absurd same (ne_of_lt greater)

end Compiled

end SymbolicCalculus
