/-
Module: SymbolicCalculus.Proofs.Expr.Ingredients
Layer: Proofs
Purpose: What expressions are made of. If all numbers in an expression have a property, and all names of
  symbols have one, and the calls are operations of the calculus by a variable, then simplification keeps
  it so: a rule moves what it has found, and the numbers that it computes are finite and have zero added.
Main exports: Expr.MadeOf, Expr.madeOf_of_not_dependsOn, Expr.MadeOf.name_of_mem, Expr.MadeOf.rename,
  Expr.not_dependsOn_of_madeOf, Rule.Keeps, Rule.madeOf_result?, Expr.madeOf_pass, Expr.madeOf_simplify
-/
import SymbolicCalculus.Formula.Meaning
import SymbolicCalculus.Proofs.Expr.Occurrences
import SymbolicCalculus.Proofs.Simplify.Firing
import SymbolicCalculus.Simplify

namespace SymbolicCalculus

namespace Expr

variable {α : Type} {Number : α → Prop} {Name : String → Prop}

/-! ### Numbers, names and operations -/

/-- The expression is made of numbers and names that each have a property, and its calls are operations
    of the calculus by a variable. -/
inductive MadeOf (Number : α → Prop) (Name : String → Prop) : Expr α → Prop where
  | number {value : α} (fits : Number value) : MadeOf Number Name (.number value)
  | symbol {name : String} (fits : Name name) : MadeOf Number Name (.symbol name)
  | neg {operand : Expr α} : MadeOf Number Name operand → MadeOf Number Name (.neg operand)
  | apply {function : Elementary} {operand : Expr α} :
      MadeOf Number Name operand → MadeOf Number Name (.apply function operand)
  | binary {op : BinaryOp} {left right : Expr α} :
      MadeOf Number Name left → MadeOf Number Name right → MadeOf Number Name (.binary op left right)
  | call {name var : String} {operand : Expr α} (operation : isOperationName name = true) :
      MadeOf Number Name operand → Name var → MadeOf Number Name (.call name [operand, .symbol var])

theorem madeOf_number {value : α} : (number value).MadeOf Number Name ↔ Number value := by
  constructor
  · intro made
    cases made with
    | number fits => exact fits
  · exact .number

theorem madeOf_neg {operand : Expr α} :
    (neg operand).MadeOf Number Name ↔ operand.MadeOf Number Name := by
  constructor
  · intro made
    cases made with
    | neg inner => exact inner
  · exact .neg

theorem madeOf_binary {op : BinaryOp} {left right : Expr α} :
    (binary op left right).MadeOf Number Name ↔
      left.MadeOf Number Name ∧ right.MadeOf Number Name := by
  constructor
  · intro made
    cases made with
    | binary l r => exact ⟨l, r⟩
  · rintro ⟨l, r⟩
    exact .binary l r

/-- An expression without calls in which a variable does not occur is made of other names. -/
theorem madeOf_of_not_dependsOn {var : String} :
    ∀ {e : Expr α}, e.callDepth = 0 → e.dependsOn var = false →
      e.MadeOf (fun _ => True) (· ≠ var)
  | number _, _, _ => .number trivial
  | symbol name, _, free => by
      refine .symbol ?_
      rintro rfl
      simp [dependsOn, symbols] at free
  | neg operand, calls, free => .neg (madeOf_of_not_dependsOn (e := operand) calls free)
  | apply _ operand, calls, free => .apply (madeOf_of_not_dependsOn (e := operand) calls free)
  | binary op left right, calls, free => by
      rw [callDepth, Nat.max_eq_zero_iff] at calls
      rw [dependsOn_eq_false_iff, symbols, List.mem_append, not_or] at free
      exact .binary (madeOf_of_not_dependsOn calls.1 (dependsOn_eq_false_iff.2 free.1))
        (madeOf_of_not_dependsOn calls.2 (dependsOn_eq_false_iff.2 free.2))
  | call _ _, calls, _ => nomatch calls

/-- The symbols of an expression are among the names that it is made of. -/
theorem MadeOf.name_of_mem {e : Expr α} (made : e.MadeOf Number Name) :
    ∀ name ∈ e.symbols, Name name := by
  induction made with
  | number _ => exact fun _ mem => nomatch mem
  | symbol fits =>
    intro name mem
    rw [symbols, List.mem_singleton] at mem
    exact mem ▸ fits
  | neg _ inner => exact inner
  | apply _ inner => exact inner
  | binary _ _ left right =>
    intro name mem
    exact (List.mem_append.1 mem).elim (left name) (right name)
  | call _ _ fits inner =>
    intro name mem
    simp only [symbols, symbolsOfAll, List.append_nil, List.mem_append, List.mem_singleton] at mem
    rcases mem with inside | rfl
    · exact inner name inside
    · exact fits

/-- What an expression says of its names can be replaced by anything that holds of its symbols. -/
theorem MadeOf.rename {Name' : String → Prop} {e : Expr α} (made : e.MadeOf Number Name)
    (fits : ∀ name ∈ e.symbols, Name' name) : e.MadeOf Number Name' := by
  induction made with
  | number value => exact .number value
  | symbol _ => exact .symbol (fits _ (List.mem_singleton_self _))
  | neg _ inner => exact .neg (inner fits)
  | apply _ inner => exact .apply (inner fits)
  | binary _ _ left right =>
    exact .binary (left fun name mem => fits name (List.mem_append_left _ mem))
      (right fun name mem => fits name (List.mem_append_right _ mem))
  | call operation _ _ inner =>
    refine .call operation (inner fun name mem => fits name ?_) (fits _ ?_)
    · exact List.mem_append_left _ mem
    · simp [symbols, symbolsOfAll]

/-- A variable does not occur in what is made of other names. -/
theorem not_dependsOn_of_madeOf {var : String} {e : Expr α}
    (made : e.MadeOf Number (· ≠ var)) : e.dependsOn var = false := by
  rw [dependsOn_eq_false_iff]
  exact fun mem => made.name_of_mem var mem rfl

end Expr

namespace Rule

open SymbolicCalculus.Expr

variable {α : Type} [Scalar α] {Number : α → Prop} {Name : String → Prop} {e result : Expr α}

/-! ### Rules -/

/-- The property is one of all numbers that simplification puts in the place of others. -/
structure Keeps (Number : α → Prop) : Prop where
  zero : Number (Scalar.ofNat 0)
  one : Number (Scalar.ofNat 1)
  computed : ∀ value : α, Scalar.isFinite value = true → Number (value + Scalar.ofNat 0)
  negated : ∀ value : α, Number value → Number (-value + Scalar.ofNat 0)

section

variable (keeps : Keeps Number)
include keeps

theorem madeOf_zero : (Expr.ofNat 0 : Expr α).MadeOf Number Name := .number keeps.zero

theorem madeOf_one : (Expr.ofNat 1 : Expr α).MadeOf Number Name := .number keeps.one

theorem madeOf_computed {value : α} (finite : Scalar.isFinite value = true) :
    (computed value).MadeOf Number Name := .number (keeps.computed value finite)

theorem madeOf_computed_neg {value : α} (fits : Number value) :
    (computed (-value)).MadeOf Number Name := .number (keeps.negated value fits)

theorem madeOf_scaled? {a b : α} (scaled : scaled? a b e = some result)
    (made : e.MadeOf Number Name) : result.MadeOf Number Name := by
  rcases eq_of_scaled? scaled with rfl | ⟨finite, rfl⟩
  · exact made
  · exact .binary (madeOf_computed keeps finite) made

/-- A rule makes its result of what it finds, and of numbers that it computes. -/
theorem madeOf_result? {rule : Rule} (fires : rule.result? e = some result)
    (made : e.MadeOf Number Name) : result.MadeOf Number Name := by
  cases firing_of_result? fires with
  | foldOperation finite | foldMinus finite | foldFunction _ finite => exact madeOf_computed keeps finite
  | addZero | subtractZero | multiplyOne | divideOne | powerOne => exact (madeOf_binary.1 made).1
  | zeroAdd | oneMultiply => exact (madeOf_binary.1 made).2
  | subtractFromZero | multiplyNegativeOne => exact .neg (madeOf_binary.1 made).2
  | subtractSelf | multiplyZero | divideZero => exact madeOf_zero keeps
  | divideSelf | powerZero | onePower => exact madeOf_one keeps
  | addNegated | subtractNegated =>
    obtain ⟨left, right⟩ := madeOf_binary.1 made
    exact .binary left (madeOf_neg.1 right)
  | addBelowZero | subtractBelowZero =>
    obtain ⟨left, right⟩ := madeOf_binary.1 made
    exact .binary left (madeOf_computed_neg keeps (madeOf_number.1 right))
  | constantFirst =>
    obtain ⟨left, right⟩ := madeOf_binary.1 made
    exact .binary right left
  | combineConstantFactors finite =>
    obtain ⟨-, product⟩ := madeOf_binary.1 made
    exact .binary (madeOf_computed keeps finite) (madeOf_binary.1 product).2
  | divideConstantFactor scaled =>
    obtain ⟨product, -⟩ := madeOf_binary.1 made
    exact madeOf_scaled? keeps scaled (madeOf_binary.1 product).2
  | multiplyFraction scaled =>
    obtain ⟨-, quotient⟩ := madeOf_binary.1 made
    exact madeOf_scaled? keeps scaled (madeOf_binary.1 quotient).1
  | powerOfPower _ finite =>
    obtain ⟨power, -⟩ := madeOf_binary.1 made
    exact .binary (madeOf_binary.1 power).1 (madeOf_computed keeps finite)
  | doubleNegation => exact madeOf_neg.1 (madeOf_neg.1 made)
  | negateConstantFactor =>
    obtain ⟨factor, term⟩ := madeOf_binary.1 (madeOf_neg.1 made)
    exact .binary (madeOf_computed_neg keeps (madeOf_number.1 factor)) term

end

end Rule

namespace Expr

open Rule (Keeps)

variable {α : Type} [Scalar α] {Number : α → Prop} {Name : String → Prop} (keeps : Keeps Number)
include keeps

/-! ### Passes -/

theorem madeOf_finish {e : Expr α} (applied : List Rule) (made : e.MadeOf Number Name) :
    (e.finish applied).1.MadeOf Number Name := by
  unfold finish
  split
  · next rule result found =>
    obtain ⟨tried, -, fires⟩ := List.exists_of_findSome?_eq_some found
    obtain ⟨result_, makes, pair⟩ := Option.map_eq_some_iff.1 fires
    cases pair
    exact Rule.madeOf_result? keeps makes made
  · exact made

/-- A pass makes an expression of the same things. -/
theorem madeOf_pass {e : Expr α} (made : e.MadeOf Number Name) :
    e.pass.1.MadeOf Number Name := by
  induction made with
  | number fits => exact madeOf_finish keeps _ (.number fits)
  | symbol fits => exact madeOf_finish keeps _ (.symbol fits)
  | neg _ ih => exact madeOf_finish keeps _ (.neg ih)
  | apply _ ih => exact madeOf_finish keeps _ (.apply ih)
  | binary _ _ first second => exact madeOf_finish keeps _ (.binary first second)
  | call operation _ fits ih =>
    -- no rule applies to a symbol, so the variable of the operation stays what it is
    exact madeOf_finish keeps _ (.call operation ih fits)

theorem madeOf_settle {passes : Nat} {e : Expr α} {steps : List Rule} {simplified : Simplified α}
    (done : e.settle passes steps = .ok simplified) (made : e.MadeOf Number Name) :
    simplified.result.MadeOf Number Name := by
  induction passes generalizing e steps with
  | zero => cases done
  | succ passes ih =>
    rw [settle] at done
    split at done
    · cases done
      exact made
    · exact ih done (madeOf_pass keeps made)

/-- Simplification makes an expression of the same things. -/
theorem madeOf_simplify {e result : Expr α} (done : e.simplify = .ok result)
    (made : e.MadeOf Number Name) : result.MadeOf Number Name := by
  obtain ⟨simplified, settled, rfl⟩ := settle_of_simplify done
  exact madeOf_settle keeps settled made

end Expr

end SymbolicCalculus
