/-
Module: SymbolicCalculus.Text.Span
Layer: Text
Purpose: Regions of a text. Places in a text are counted in bytes of its UTF-8 form, so that a region
  names the same characters for every reader of the text, and a region runs from its first byte up to,
  but not including, its last.
Main exports: utf8Length, Span, Span.point, Span.cover, Span.shift
-/

namespace SymbolicCalculus

/-- The number of bytes that the characters take in UTF-8. -/
def utf8Length : List Char → Nat
  | [] => 0
  | c :: cs => c.utf8Size + utf8Length cs

theorem utf8Length_append (xs ys : List Char) :
    utf8Length (xs ++ ys) = utf8Length xs + utf8Length ys := by
  induction xs with
  | nil => simp [utf8Length]
  | cons c cs ih => simp [utf8Length, ih, Nat.add_assoc]

/-- A region of a text, from the byte `start` up to the byte `stop`. -/
structure Span where
  start : Nat
  stop : Nat
deriving DecidableEq, Repr, Inhabited

namespace Span

/-- The empty region at a place. -/
def point (place : Nat) : Span := ⟨place, place⟩

/-- The region from the beginning of one region to the end of another. -/
def cover (first last : Span) : Span := ⟨first.start, last.stop⟩

/-- The region moved to the right by a number of bytes. -/
def shift (offset : Nat) (span : Span) : Span := ⟨span.start + offset, span.stop + offset⟩

end Span

end SymbolicCalculus
