/-
Module: SymbolicCalculus.Context
Layer: Evaluation
Purpose: What an expression is evaluated in: the values of variables, and the unit of angles. The
  bindings are kept in ascending order of the names, so that listing them needs no sorting and two
  contexts with the same bindings are equal.
Main exports: Context, Context.empty, Context.get?, Context.set, Context.remove, Context.similarNames
-/
import SymbolicCalculus.Scalar
import SymbolicCalculus.Text.Similar

namespace SymbolicCalculus

/-- The values of variables, in ascending order of their names, and the unit of angles. -/
structure Context (α : Type) where
  bindings : List (String × α)
  unit : AngleUnit
deriving Repr, Inhabited

namespace Context

variable {α : Type}

/-- No variable has a value, and angles are in radians. -/
def empty : Context α := ⟨[], .radians⟩

/-- The value bound to a name. -/
def lookup (name : String) : List (String × α) → Option α
  | [] => none
  | (other, value) :: rest => if other = name then some value else lookup name rest

/-- The bindings with a value for a name, at its place in the order and instead of any earlier value. -/
def bind (name : String) (value : α) : List (String × α) → List (String × α)
  | [] => [(name, value)]
  | (other, old) :: rest =>
      if name < other then (name, value) :: (other, old) :: rest
      else if name = other then (name, value) :: rest
      else (other, old) :: bind name value rest

/-- The value of a variable. -/
def get? (context : Context α) (name : String) : Option α := lookup name context.bindings

/-- The context in which a variable has a given value. -/
def set (context : Context α) (name : String) (value : α) : Context α :=
  { context with bindings := bind name value context.bindings }

/-- The context in which a variable has no value. -/
def remove (context : Context α) (name : String) : Context α :=
  { context with bindings := context.bindings.filter fun binding => binding.1 != name }

/-- The names of variables that resemble a name, in ascending order. -/
def similarNames (context : Context α) (name : String) : List String :=
  (context.bindings.map Prod.fst).filter fun other => similar other name

/-! ### How the operations change what is looked up -/

theorem lookup_bind (name other : String) (value : α) (bindings : List (String × α)) :
    lookup other (bind name value bindings) =
      if name = other then some value else lookup other bindings := by
  induction bindings with
  | nil => rfl
  | cons first rest ih =>
    obtain ⟨key, old⟩ := first
    unfold bind
    split
    · simp [lookup]
    · split
      · next same => subst same; simp only [lookup]; split <;> rfl
      · next different =>
        simp only [lookup, ih]
        by_cases here : key = other
        · simp [here, show ¬ name = other from fun same => different (same.trans here.symm)]
        · simp [here]

theorem get?_set (context : Context α) (name other : String) (value : α) :
    (context.set name value).get? other =
      if name = other then some value else context.get? other :=
  lookup_bind name other value context.bindings

@[simp] theorem unit_set (context : Context α) (name : String) (value : α) :
    (context.set name value).unit = context.unit := rfl

end Context

end SymbolicCalculus
