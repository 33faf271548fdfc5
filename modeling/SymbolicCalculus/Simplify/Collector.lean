/-
Module: SymbolicCalculus.Simplify.Collector
Layer: Simplification
Purpose: Simplification that tells every rule it applies to a collector, at the moment it applies it. A
  collector may keep the rules, count them or take no notice of them. A pass answers an expression only if
  a rule was applied somewhere in it; operands without one are put back as they were.
Main exports: StepCollector, Expr.reportFirst, Expr.reportPass, Expr.simplifyReporting
-/
import SymbolicCalculus.Simplify

namespace SymbolicCalculus

/-- Something that is told the steps of a simplification one after the other. -/
class StepCollector (σ : Type) where
  push : σ → Rule → σ

/-- Nothing is kept of the steps. -/
instance : StepCollector Unit := ⟨fun _ _ => ()⟩

/-- The steps are kept in order. -/
instance : StepCollector (List Rule) := ⟨fun steps rule => steps ++ [rule]⟩

open StepCollector (push)

variable {α σ : Type} [Scalar α] [StepCollector σ]

/-- The rule on an expression. The collector is told if it applies. -/
def Rule.report (rule : Rule) (e : Expr α) (told : σ) : Option (Expr α) × σ :=
  match rule.result? e with
  | some result => (some result, push told rule)
  | none => (none, told)

namespace Expr

/-- The first of the rules that applies to an expression; those after it are not tried. -/
def reportFirst : List Rule → Expr α → σ → Option (Expr α) × σ
  | [], _, told => (none, told)
  | rule :: others, e, told =>
      match rule.report e told with
      | (some result, told) => (some result, told)
      | (none, told) => reportFirst others e told

/-- A node after its operands. `rebuilt` is the node with the operands that have changed, if one has. -/
def reportNode (e : Expr α) (rebuilt : Option (Expr α)) (told : σ) : Option (Expr α) × σ :=
  match rebuilt with
  | some rebuilt =>
      let last := reportFirst Rule.all rebuilt told
      (some (last.1.getD rebuilt), last.2)
  | none => reportFirst Rule.all e told

mutual

/-- One pass over an expression: what becomes of it, if any rule applies at any node. -/
def reportPass : Expr α → σ → Option (Expr α) × σ
  | number value, told => reportNode (number value) none told
  | symbol name, told => reportNode (symbol name) none told
  | neg operand, told =>
      let inner := operand.reportPass told
      reportNode (neg operand) (inner.1.map neg) inner.2
  | apply function operand, told =>
      let inner := operand.reportPass told
      reportNode (apply function operand) (inner.1.map (apply function)) inner.2
  | binary op left right, told =>
      let l := left.reportPass told
      let r := right.reportPass l.2
      let rebuilt :=
        if l.1.isNone && r.1.isNone then none
        else some (binary op (l.1.getD left) (r.1.getD right))
      reportNode (binary op left right) rebuilt r.2
  | call name arguments, told =>
      let inner := reportAll arguments told
      let rebuilt :=
        if inner.1.all Option.isNone then none
        else some (call name (List.zipWith Option.getD inner.1 arguments))
      reportNode (call name arguments) rebuilt inner.2

/-- One pass over each of a row of expressions. -/
def reportAll : List (Expr α) → σ → List (Option (Expr α)) × σ
  | [], told => ([], told)
  | first :: others, told =>
      let head := first.reportPass told
      let tail := reportAll others head.2
      (head.1 :: tail.1, tail.2)

end

/-- Passes until one changes nothing. If the allowed passes are used up before, the expression that they
    have led to. -/
def settleReporting : Nat → Expr α → σ → Except (Expr α) (Expr α × σ)
  | 0, e, _ => .error e
  | passes + 1, e, told =>
      match e.reportPass told with
      | (some next, told) => settleReporting passes next told
      | (none, told) => .ok (e, told)

/-- The expression simplified in at most so many passes, and the collector after it. -/
def simplifyReporting (limit : Nat) (e : Expr α) (told : σ) :
    Except (PassLimit α) (Expr α × σ) :=
  match e.settleReporting limit told with
  | .ok reported => .ok reported
  | .error last => .error ⟨e, limit, last⟩

end Expr

end SymbolicCalculus
