/-
Module: SymbolicCalculus.Proofs.Success
Layer: Proofs
Purpose: What has succeeded if a computation that can fail has: every step of it, one after another. And
  what has failed if it has: one step of it, behind steps that have not.
Main exports: bind_eq_ok_iff, map_eq_ok_iff, mapError_eq_ok_iff, bind_eq_error_iff, map_eq_error_iff,
  mapError_eq_error_iff
-/
import Mathlib

namespace SymbolicCalculus

variable {ε ε' β γ : Type} {first : Except ε β}

theorem bind_eq_ok_iff {next : β → Except ε γ} {result : γ} :
    first.bind next = .ok result ↔ ∃ value, first = .ok value ∧ next value = .ok result := by
  cases first <;> simp [Except.bind]

theorem map_eq_ok_iff {make : β → γ} {result : γ} :
    first.map make = .ok result ↔ ∃ value, first = .ok value ∧ make value = result := by
  cases first <;> simp [Except.map]

theorem mapError_eq_ok_iff {blame : ε → ε'} {result : β} :
    first.mapError blame = .ok result ↔ first = .ok result := by
  cases first <;> simp [Except.mapError]

theorem bind_eq_error_iff {next : β → Except ε γ} {reason : ε} :
    first.bind next = .error reason ↔
      first = .error reason ∨ ∃ value, first = .ok value ∧ next value = .error reason := by
  cases first <;> simp [Except.bind]

theorem map_eq_error_iff {make : β → γ} {reason : ε} :
    first.map make = .error reason ↔ first = .error reason := by
  cases first <;> simp [Except.map]

theorem mapError_eq_error_iff {blame : ε → ε'} {reason : ε'} :
    first.mapError blame = .error reason ↔ ∃ cause, first = .error cause ∧ blame cause = reason := by
  cases first <;> simp [Except.mapError]

theorem map_map_eq {δ : Type} {make : β → γ} {next : γ → δ} :
    (first.map make).map next = first.map fun value => next (make value) := by
  cases first <;> rfl

theorem map_bind_eq {δ : Type} {next : β → Except ε γ} {make : γ → δ} :
    (first.bind next).map make = first.bind fun value => (next value).map make := by
  cases first <;> rfl

theorem bind_bind_eq {δ : Type} {next : β → Except ε γ} {last : γ → Except ε δ} :
    (first.bind next).bind last = first.bind fun value => (next value).bind last := by
  cases first <;> rfl

end SymbolicCalculus
