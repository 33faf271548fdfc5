/-
Module: SymbolicCalculus.Formula.Reading
Layer: Formulas
Purpose: The outcome of reading a part of a formula from a row of tokens. A reading that is done has
  taken at least one token off the row, and carries the proof of it, so that readers which call each
  other come to an end. A reading that failed tells where it had got to.
Main exports: Reading, Reading.map, Reading.relax, Reading.orBackTo, Reading.value?
-/
import SymbolicCalculus.Formula.Cause

namespace SymbolicCalculus

/-- What came of reading a `β` from fewer than `bound` tokens. -/
inductive Reading (β : Type) (bound : Nat) where
  /-- The part was read, and the tokens `rest` are left. -/
  | done (value : β) (rest : List Token) (shorter : rest.length < bound)
  /-- The part could not be read; the tokens `rest` had not been looked at or not been taken. -/
  | failed (error : Located ParseCause) (rest : List Token)
deriving Repr

namespace Reading

variable {β γ : Type} {bound larger : Nat}

instance : Inhabited (Reading β bound) := ⟨failed default []⟩

/-- The reading with another value in it. -/
def map (f : β → γ) : Reading β bound → Reading γ bound
  | done value rest shorter => done (f value) rest shorter
  | failed error rest => failed error rest

/-- The reading as one from a longer row. -/
def relax (within : bound ≤ larger) : Reading β bound → Reading β larger
  | done value rest shorter => done value rest (Nat.lt_of_lt_of_le shorter within)
  | failed error rest => failed error rest

/-- After a failure, all tokens are put back. -/
def orBackTo (tokens : List Token) : Reading β bound → Reading β bound
  | failed error _ => failed error tokens
  | success => success

/-- The tokens that are left, or from which a failed reading would go on. -/
def rest : Reading β bound → List Token
  | done _ rest _ => rest
  | failed _ rest => rest

/-- The value that was read. -/
def value? : Reading β bound → Option β
  | done value _ _ => some value
  | failed _ _ => none

/-- The value that was read, or the reason why there is none. -/
def toExcept : Reading β bound → Except (Located ParseCause) β
  | done value _ _ => .ok value
  | failed error _ => .error error

end Reading

end SymbolicCalculus
