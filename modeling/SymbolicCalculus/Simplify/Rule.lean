/-
Module: SymbolicCalculus.Simplify.Rule
Layer: Simplification
Purpose: The identities by which expressions are simplified. A rule looks at the outermost operations of
  an expression only, and it never makes the expression larger. The rules are tried in the order of
  `Rule.all`, and the first that applies is taken.
Main exports: Rule, Rule.identity, Rule.result?, Rule.all, Expr.firstRule?
-/
import SymbolicCalculus.Expr

namespace SymbolicCalculus

/-- An identity, read from left to right. -/
inductive Rule where
  | foldConstants
  | addZero | subtractZero | subtractFromZero | subtractSelf | addNegative | subtractNegative
  | multiplyOne | multiplyZero | constantFirst | combineConstantFactors | multiplyNegativeOne
  | divideOne | divideZero | divideSelf | divideConstantFactor | multiplyFraction
  | powerOne | powerZero | onePower | powerOfPower
  | doubleNegation | negateConstantFactor
deriving DecidableEq, Repr, Inhabited

namespace Rule

/-- The identity in words or signs. -/
def identity : Rule → String
  | foldConstants => "evaluate operations on numbers"
  | addZero => "a + 0 = a"
  | subtractZero => "a - 0 = a"
  | subtractFromZero => "0 - a = -a"
  | subtractSelf => "a - a = 0"
  | addNegative => "a + (-b) = a - b"
  | subtractNegative => "a - (-b) = a + b"
  | multiplyOne => "1 * a = a"
  | multiplyZero => "0 * a = 0"
  | constantFirst => "a * c = c * a"
  | combineConstantFactors => "c1 * (c2 * a) = (c1 * c2) * a"
  | multiplyNegativeOne => "(-1) * a = -a"
  | divideOne => "a / 1 = a"
  | divideZero => "0 / a = 0"
  | divideSelf => "a / a = 1"
  | divideConstantFactor => "(c1 * a) / c2 = (c1 / c2) * a"
  | multiplyFraction => "c1 * (a / c2) = (c1 / c2) * a"
  | powerOne => "a^1 = a"
  | powerZero => "a^0 = 1"
  | onePower => "1^a = 1"
  | powerOfPower => "(a^b)^c = a^(b * c)"
  | doubleNegation => "-(-a) = a"
  | negateConstantFactor => "-(c * a) = (-c) * a"

/-! ### The order of the rules -/

/-- The rules that compute. -/
def folding : List Rule := [foldConstants]

/-- The rules for sums and differences. -/
def sums : List Rule :=
  [addZero, subtractZero, subtractFromZero, subtractSelf, addNegative, subtractNegative]

/-- The rules for products. -/
def products : List Rule :=
  [multiplyOne, multiplyZero, constantFirst, combineConstantFactors, multiplyNegativeOne]

/-- The rules for quotients. -/
def quotients : List Rule :=
  [divideOne, divideZero, divideSelf, divideConstantFactor, multiplyFraction]

/-- The rules for powers. -/
def powers : List Rule := [powerOne, powerZero, onePower, powerOfPower]

/-- The rules for minus signs. -/
def negations : List Rule := [doubleNegation, negateConstantFactor]

/-- Every rule, in the order in which they are tried. -/
def all : List Rule := folding ++ sums ++ products ++ quotients ++ powers ++ negations

/-! ### What the rules do -/

variable {α : Type} [Scalar α]

/-- A number that a rule has computed, with no minus sign if it is zero. -/
def computed (value : α) : Expr α := .number (value + Scalar.ofNat 0)

/-- The expression whose negative the given one is, if it is negated or a number below zero. -/
def negated? : Expr α → Option (Expr α)
  | .neg operand => some operand
  | .number value => if Scalar.belowZero value then some (computed (-value)) else none
  | _ => none

/-- The term with the quotient of two numbers as its factor, if the quotient is finite. A factor of one
    is left out. -/
def scaled? (a b : α) (term : Expr α) : Option (Expr α) :=
  let quotient := a / b
  if !Scalar.isFinite quotient then none
  else if quotient == Scalar.ofNat 1 then some term
  else some (computed quotient * term)

/-- A computed number, if it is finite. -/
def finite? (value : α) : Option (Expr α) :=
  if Scalar.isFinite value then some (computed value) else none

/-- An operation on numbers is carried out if its result is finite. A function is only applied if the
    result is whole, since other results would have to be rounded. -/
def fold? : Expr α → Option (Expr α)
  | .binary op (.number a) (.number b) => finite? (op.apply a b)
  | .neg (.number a) => finite? (-a)
  | .apply function (.number a) =>
      let value := Scalar.apply function a
      if Scalar.isWhole value then finite? value else none
  | _ => none

/-- The result of the rule on an expression; none if it does not apply. -/
def result? (rule : Rule) (e : Expr α) : Option (Expr α) :=
  match rule with
  | foldConstants => fold? e
  | addZero =>
      match e with
      | .binary .add a b => if b.isNat 0 then some a else if a.isNat 0 then some b else none
      | _ => none
  | subtractZero =>
      match e with
      | .binary .sub a b => if b.isNat 0 then some a else none
      | _ => none
  | subtractFromZero =>
      match e with
      | .binary .sub a b => if a.isNat 0 then some (-b) else none
      | _ => none
  | subtractSelf =>
      match e with
      | .binary .sub a b => if a.same b then some (.ofNat 0) else none
      | _ => none
  | addNegative =>
      match e with
      | .binary .add a b => (negated? b).map fun c => a - c
      | _ => none
  | subtractNegative =>
      match e with
      | .binary .sub a b => (negated? b).map fun c => a + c
      | _ => none
  | multiplyOne =>
      match e with
      | .binary .mul a b => if b.isNat 1 then some a else if a.isNat 1 then some b else none
      | _ => none
  | multiplyZero =>
      match e with
      | .binary .mul a b => if a.isNat 0 || b.isNat 0 then some (.ofNat 0) else none
      | _ => none
  | constantFirst =>
      match e with
      | .binary .mul (.number _) _ => none
      | .binary .mul a (.number c) => some (.number c * a)
      | _ => none
  | combineConstantFactors =>
      match e with
      | .binary .mul (.number a) (.binary .mul (.number b) c) =>
          if Scalar.isFinite (a * b) then some (computed (a * b) * c) else none
      | _ => none
  | multiplyNegativeOne =>
      match e with
      | .binary .mul a b => if a.isNumber (-Scalar.ofNat 1) then some (-b) else none
      | _ => none
  | divideOne =>
      match e with
      | .binary .div a b => if b.isNat 1 then some a else none
      | _ => none
  | divideZero =>
      match e with
      | .binary .div a b => if a.isNat 0 && !b.isNat 0 then some (.ofNat 0) else none
      | _ => none
  | divideSelf =>
      match e with
      | .binary .div a b => if a.same b && !b.isNat 0 then some (.ofNat 1) else none
      | _ => none
  | divideConstantFactor =>
      match e with
      | .binary .div (.binary .mul (.number a) c) (.number b) => scaled? a b c
      | _ => none
  | multiplyFraction =>
      match e with
      | .binary .mul (.number a) (.binary .div c (.number b)) => scaled? a b c
      | _ => none
  | powerOne =>
      match e with
      | .binary .pow a b => if b.isNat 1 then some a else none
      | _ => none
  | powerZero =>
      match e with
      | .binary .pow a b => if b.isNat 0 && !a.isNat 0 then some (.ofNat 1) else none
      | _ => none
  | onePower =>
      match e with
      | .binary .pow a _ => if a.isNat 1 then some (.ofNat 1) else none
      | _ => none
  | powerOfPower =>
      match e with
      -- an even inner power forgets the sign of the base, and only a whole outer power never asks for it
      | .binary .pow (.binary .pow a (.number b)) (.number c) =>
          if Scalar.isEven b && !Scalar.isWhole c then none
          else if Scalar.isFinite (b * c) then some (a ^ computed (b * c))
          else none
      | _ => none
  | doubleNegation =>
      match e with
      | .neg (.neg a) => some a
      | _ => none
  | negateConstantFactor =>
      match e with
      | .neg (.binary .mul (.number c) a) => some (computed (-c) * a)
      | _ => none

end Rule

namespace Expr

variable {α : Type} [Scalar α]

/-- The first of the rules that applies to an expression, and its result. -/
def firstOf? (rules : List Rule) (e : Expr α) : Option (Rule × Expr α) :=
  rules.findSome? fun rule => (rule.result? e).map fun result => (rule, result)

/-- The first rule that applies to an expression, and its result. -/
def firstRule? (e : Expr α) : Option (Rule × Expr α) := e.firstOf? Rule.all

end Expr

/-! ### Rules and calls

A rule puts together only what it has found, so it never puts calls deeper into each other. -/

namespace Rule

variable {α : Type} [Scalar α]

theorem callDepth_fold? {e result : Expr α} (fires : fold? e = some result) :
    result.callDepth = 0 := by
  have computedFinite : ∀ {value : α} {r : Expr α}, finite? value = some r → r.callDepth = 0 := by
    intro value r found
    unfold finite? at found
    split at found
    · cases found; rfl
    · cases found
  unfold fold? at fires
  split at fires
  · exact computedFinite fires
  · exact computedFinite fires
  · dsimp only at fires
    split at fires
    · exact computedFinite fires
    · cases fires
  · cases fires

theorem callDepth_scaled? {a b : α} {term result : Expr α} (fires : scaled? a b term = some result) :
    result.callDepth = term.callDepth := by
  unfold scaled? at fires
  dsimp only at fires
  split at fires
  · cases fires
  · split at fires <;> cases fires <;> simp [Expr.callDepth, computed]

theorem callDepth_negated? {e result : Expr α} (fires : negated? e = some result) :
    result.callDepth ≤ e.callDepth := by
  unfold negated? at fires
  split at fires
  · cases fires; simp [Expr.callDepth]
  · split at fires <;> cases fires; simp [Expr.callDepth, computed]
  · cases fires

/-- A rule never puts calls deeper into each other. -/
theorem callDepth_result? {rule : Rule} {e result : Expr α} (fires : rule.result? e = some result) :
    result.callDepth ≤ e.callDepth := by
  cases rule
  case foldConstants => simp [callDepth_fold? fires]
  case addNegative =>
    simp only [result?] at fires
    split at fires
    · obtain ⟨c, found, rfl⟩ := Option.map_eq_some_iff.1 fires
      have := callDepth_negated? found
      simp only [Expr.sub_def, Expr.callDepth]; omega
    · cases fires
  case subtractNegative =>
    simp only [result?] at fires
    split at fires
    · obtain ⟨c, found, rfl⟩ := Option.map_eq_some_iff.1 fires
      have := callDepth_negated? found
      simp only [Expr.callDepth]; omega
    · cases fires
  case divideConstantFactor =>
    simp only [result?] at fires
    split at fires
    · have := callDepth_scaled? fires
      simp only [Expr.callDepth]; omega
    · cases fires
  case multiplyFraction =>
    simp only [result?] at fires
    split at fires
    · have := callDepth_scaled? fires
      simp only [Expr.callDepth]; omega
    · cases fires
  all_goals
    simp only [result?] at fires
    repeat' split at fires
    all_goals
      cases fires
      try simp only [Expr.callDepth, Expr.ofNat, computed, Expr.pow_def]
      try omega

end Rule

end SymbolicCalculus
