/-
Module: SymbolicCalculus.Text.Located
Layer: Text
Purpose: A reason to reject a text, with the region of the text that it is about.
Main exports: Located, Located.shift
-/
import SymbolicCalculus.Text.Span

namespace SymbolicCalculus

/-- A cause and the region of the text at which it was found. -/
structure Located (κ : Type) where
  span : Span
  cause : κ
deriving DecidableEq, Repr, Inhabited

/-- The same cause in a longer text in which `offset` bytes stand before. -/
def Located.shift {κ : Type} (offset : Nat) (found : Located κ) : Located κ :=
  ⟨found.span.shift offset, found.cause⟩

end SymbolicCalculus
