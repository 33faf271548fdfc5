/-
Module: SymbolicCalculus.Proofs.Formula.Readers
Layer: Proofs
Purpose: The readers of formulas as equations. The readers carry through their recursion the proof that
  they leave fewer tokens than they were given; the outcome of a reading forgets that proof, and the
  outcomes obey one equation for each reader. Nothing else has to be known of the readers.
Main exports: Reading.outcome, Formula.reach, Formula.outcome_operand_minus, Formula.outcome_climb_cons,
  Formula.outcome_primary_symbol and the equations of the other readers, Formula.parse_eq_ok_iff_outcome
-/
import Mathlib
import SymbolicCalculus.Formula.Parser

namespace SymbolicCalculus

/-- A value with the tokens left behind it, or a fault with the tokens from which a failed reading would
    go on. -/
abbrev Outcome (β : Type) := Except (Located ParseCause × List Token) (β × List Token)

namespace Reading

variable {β γ : Type} {bound larger : Nat}

/-- What came of a reading, without the proof that it has taken a token. -/
def outcome : Reading β bound → Outcome β
  | done value rest _ => .ok (value, rest)
  | failed error rest => .error (error, rest)

@[simp] theorem outcome_done (value : β) (rest : List Token) (shorter : rest.length < bound) :
    (done value rest shorter).outcome = .ok (value, rest) := rfl

@[simp] theorem outcome_failed (error : Located ParseCause) (rest : List Token) :
    (failed error rest : Reading β bound).outcome = .error (error, rest) := rfl

@[simp] theorem outcome_relax (within : bound ≤ larger) (reading : Reading β bound) :
    (reading.relax within).outcome = reading.outcome := by
  cases reading <;> rfl

theorem toExcept_eq (reading : Reading β bound) :
    reading.toExcept = (reading.outcome.map Prod.fst).mapError Prod.fst := by
  cases reading <;> rfl

/-- Putting the tokens back changes only where a failed reading would go on. -/
theorem outcome_orBackTo (tokens : List Token) (reading : Reading β bound) :
    (reading.orBackTo tokens).outcome =
      reading.outcome.mapError fun fault => (fault.1, tokens) := by
  cases reading <;> rfl

end Reading

namespace Formula

open Reading

variable {α : Type} [Numeral α]

/-- An operand and all that follows it and binds at least as tightly as the level. -/
def reach (stop : Nat) (level : Precedence) (tokens : List Token) : Outcome (Formula α) :=
  (operand stop tokens).outcome.bind fun first => (climb stop level first.1 first.2).outcome

/-! ### Formulas -/

theorem outcome_expression (stop : Nat) (tokens : List Token) :
    (expression stop tokens : Reading (Formula α) _).outcome = reach stop .any tokens := by
  rw [expression, reach]
  cases (operand stop tokens : Reading (Formula α) _) with
  | failed => rfl
  | done first rest => simp [Except.bind]

theorem outcome_climb_nil (stop : Nat) (level : Precedence) (left : Formula α) :
    (climb stop level left []).outcome = .ok (left, []) := by
  rw [climb, outcome_done]

/-- A token that is no operator, or one that binds too loosely, ends the climb. -/
theorem outcome_climb_stops {stop : Nat} {level : Precedence} {left : Formula α} {sign : Token}
    {rest : List Token}
    (loose : ∀ op, sign.kind.binaryOp? = some op → op.precedence < level) :
    (climb stop level left (sign :: rest)).outcome = .ok (left, sign :: rest) := by
  rw [climb]
  split
  · rfl
  · next op known => rw [if_pos (loose op known), outcome_done]

/-- An operator that binds tightly enough takes the formula to its left as its left operand. -/
theorem outcome_climb_cons {stop : Nat} {level : Precedence} {left : Formula α} {sign : Token}
    {rest : List Token} {op : BinaryOp} (known : sign.kind.binaryOp? = some op)
    (tight : ¬ op.precedence < level) :
    (climb stop level left (sign :: rest)).outcome =
      (reach stop op.rightLevel rest).bind fun right =>
        (climb stop level (.binary op sign.span left right.1) right.2).outcome := by
  rw [climb, reach]
  split
  · next none_ => rw [known] at none_; cases none_
  · next other found =>
    cases known.symm.trans found
    rw [if_neg tight]
    cases (operand stop rest : Reading (Formula α) _) with
    | failed => rfl
    | done first remaining =>
      dsimp only [outcome_done, Except.bind]
      cases climb stop op.rightLevel first remaining with
      | failed => rfl
      | done right remaining => rw [outcome_relax, outcome_done]

/-- A minus sign before an operand takes all that binds tighter than it. -/
theorem outcome_operand_minus {stop : Nat} {sign : Token} {rest : List Token}
    (minus : sign.kind = .minus) :
    (operand stop (sign :: rest) : Reading (Formula α) _).outcome =
      (reach stop .neg rest).map fun whole => (.neg whole.1 sign.span, whole.2) := by
  obtain ⟨kind, span, lexeme⟩ := sign
  cases minus
  rw [operand, reach]
  cases (operand stop rest : Reading (Formula α) _) with
  | failed => rfl
  | done first left =>
    dsimp only [outcome_done, Except.bind]
    cases climb stop .neg first left <;> rfl

/-- Any other operand is a primary part. -/
theorem outcome_operand_of_not_minus {stop : Nat} {tokens : List Token}
    (other : ∀ sign ∈ tokens.head?, sign.kind ≠ .minus) :
    (operand stop tokens : Reading (Formula α) _).outcome =
      (primary stop tokens).outcome.mapError fun fault => (fault.1, tokens) := by
  rw [operand.eq_def]
  split
  · exact absurd rfl (other _ rfl)
  · rw [outcome_orBackTo]

/-! ### Primary parts -/

/-- A number is read if it is in range. -/
theorem outcome_primary_number {stop : Nat} {literal : Token} {rest : List Token}
    (number : literal.kind = .int ∨ literal.kind = .float) :
    (primary stop (literal :: rest) : Reading (Formula α) _).outcome =
      match Numeral.ofLiteral? literal.lexeme with
      | some value => .ok (.number value literal.span, rest)
      | none => .error (⟨literal.span, .numberOutOfRange⟩, literal :: rest) := by
  obtain ⟨kind, span, lexeme⟩ := literal
  rw [primary]
  rcases number with int | float
  · cases int
    simp only [outcome_orBackTo, numeral]
    cases (Numeral.ofLiteral? lexeme : Option α) <;> rfl
  · cases float
    simp only [outcome_orBackTo, numeral]
    cases (Numeral.ofLiteral? lexeme : Option α) <;> rfl

/-- A name is a symbol unless an opening parenthesis stands behind it. -/
theorem outcome_primary_symbol {stop : Nat} {word : Token} {rest : List Token}
    (name : word.kind = .name) (other : ∀ next ∈ rest.head?, next.kind ≠ .openParen) :
    (primary stop (word :: rest) : Reading (Formula α) _).outcome =
      .ok (.symbol word.lexeme word.span, rest) := by
  obtain ⟨kind, span, lexeme⟩ := word
  cases name
  rw [primary]
  dsimp only
  split
  · next found => exact absurd rfl (other _ found)
  · rfl

/-- A name before an opening parenthesis is called. -/
theorem outcome_primary_call {stop : Nat} {word opening : Token} {inside : List Token}
    (name : word.kind = .name) (opens : opening.kind = .openParen) :
    (primary stop (word :: opening :: inside) : Reading (Formula α) _).outcome =
      (callee stop word.lexeme word.span (opening :: inside)).outcome := by
  obtain ⟨kind, span, lexeme⟩ := word
  obtain ⟨kind', span', lexeme'⟩ := opening
  cases name
  cases opens
  rw [primary]
  simp only [List.head?_cons, outcome_relax]

theorem outcome_primary_group {stop : Nat} {opening : Token} {inside : List Token}
    (opens : opening.kind = .openParen) :
    (primary stop (opening :: inside) : Reading (Formula α) _).outcome =
      (group stop (opening :: inside)).outcome.mapError fun fault =>
        (fault.1, opening :: inside) := by
  obtain ⟨kind, span, lexeme⟩ := opening
  cases opens
  rw [primary]
  exact outcome_orBackTo _ _

/-- Every other token begins no primary part. -/
theorem outcome_primary_other {stop : Nat} {found : Token} {rest : List Token}
    (other : found.kind ∉ [.int, .float, .name, .openParen]) :
    ∃ cause, (primary stop (found :: rest) : Reading (Formula α) _).outcome =
      .error (⟨found.span, cause⟩, found :: rest) := by
  obtain ⟨kind, span, lexeme⟩ := found
  rw [primary]
  cases kind <;> first | exact ⟨_, rfl⟩ | simp at other

/-! ### Parentheses and calls -/

/-- A formula in parentheses, if it is neither missing nor left open. -/
theorem outcome_group {stop : Nat} {opening : Token} {inside : List Token}
    (opens : opening.kind = .openParen)
    (filled : ∀ next ∈ inside.head?, next.kind ≠ .closeParen) :
    (group stop (opening :: inside) : Reading (Formula α) _).outcome =
      match (expression stop inside : Reading (Formula α) _).outcome with
      | .error fault => .error (fault.1, inside)
      | .ok (_, []) => .error (⟨opening.span, .unclosedParenthesis true⟩, [])
      | .ok (inner, closing :: rest) =>
          if closing.kind = .closeParen then
            .ok (.paren inner (opening.span.cover closing.span), rest)
          else .error (unexpected [.closeParen] closing, closing :: rest) := by
  rw [group, if_pos opens]
  split
  · next found => exact absurd rfl (filled _ found)
  · cases (expression stop inside : Reading (Formula α) _) with
    | failed => rfl
    | done inner left =>
      cases left with
      | nil => rfl
      | cons closing rest =>
        dsimp only [outcome_done]
        split <;> rfl

theorem outcome_group_empty {stop : Nat} {opening closing : Token} {rest : List Token}
    (opens : opening.kind = .openParen) (closes : closing.kind = .closeParen) :
    (group stop (opening :: closing :: rest) : Reading (Formula α) _).outcome =
      .error (⟨opening.span.cover closing.span, .emptyParenthesis⟩, closing :: rest) := by
  obtain ⟨kind, span, lexeme⟩ := closing
  cases closes
  rw [group, if_pos opens]
  rfl

theorem outcome_callee_empty {stop : Nat} {called : String} {place : Span}
    {opening closing : Token} {rest : List Token} (opens : opening.kind = .openParen)
    (closes : closing.kind = .closeParen) :
    (callee stop called place (opening :: closing :: rest) : Reading (Formula α) _).outcome =
      .ok (.call called place [] (opening.span.cover closing.span), rest) := by
  obtain ⟨kind, span, lexeme⟩ := closing
  cases closes
  rw [callee, if_pos opens]
  rfl

theorem outcome_callee {stop : Nat} {called : String} {place : Span} {opening : Token}
    {inside : List Token} (opens : opening.kind = .openParen)
    (filled : ∀ next ∈ inside.head?, next.kind ≠ .closeParen) :
    (callee stop called place (opening :: inside) : Reading (Formula α) _).outcome =
      (arguments stop opening.span inside).outcome.map fun given =>
        (.call called place given.1.1 (opening.span.cover given.1.2), given.2) := by
  rw [callee, if_pos opens]
  split
  · next found => exact absurd rfl (filled _ found)
  · cases (arguments stop opening.span inside : Reading (List (Formula α) × Span) _) <;> rfl

/-- The arguments of a call: one more after every comma, up to the closing parenthesis. -/
theorem outcome_arguments (stop : Nat) (opening : Span) (tokens : List Token) :
    (arguments stop opening tokens : Reading (List (Formula α) × Span) _).outcome =
      match (expression stop tokens : Reading (Formula α) _).outcome with
      | .error fault => .error (fault.1, tokens)
      | .ok (_, []) => .error (⟨opening, .unclosedParenthesis true⟩, [])
      | .ok (first, found :: rest) =>
          if found.kind = .closeParen then .ok (([first], found.span), rest)
          else if found.kind = .comma then
            (arguments stop opening rest).outcome.map fun others =>
              ((first :: others.1.1, others.1.2), others.2)
          else .error (unexpected [.comma, .closeParen] found, found :: rest) := by
  rw [arguments]
  cases (expression stop tokens : Reading (Formula α) _) with
  | failed => rfl
  | done first left =>
    cases left with
    | nil => rfl
    | cons found rest =>
      obtain ⟨kind, span, lexeme⟩ := found
      dsimp only [outcome_done]
      cases kind
      case comma =>
        rw [if_neg (by decide), if_pos rfl]
        dsimp only
        cases (arguments stop opening rest : Reading (List (Formula α) × Span) _) <;> rfl
      all_goals rfl

/-! ### Literals and calls by themselves -/

theorem outcome_literal_number {stop : Nat} {found : Token} {rest : List Token}
    (number : found.kind = .int ∨ found.kind = .float) :
    (literal stop (found :: rest) : Reading (Formula α) _).outcome =
      match Numeral.ofLiteral? found.lexeme with
      | some value => .ok (.number value found.span, rest)
      | none => .error (⟨found.span, .numberOutOfRange⟩, found :: rest) := by
  obtain ⟨kind, span, lexeme⟩ := found
  rcases number with ⟨rfl⟩ | ⟨rfl⟩
  all_goals
    dsimp only [literal]
    rw [outcome_orBackTo, numeral]
    cases (Numeral.ofLiteral? lexeme : Option α) <;> rfl

theorem outcome_invocation {stop : Nat} {word : Token} {inside : List Token}
    (named : word.kind = .name) :
    (invocation stop (word :: inside) : Reading (Formula α) _).outcome =
      (callee stop word.lexeme word.span inside).outcome := by
  rw [invocation, name, token, if_pos named]
  exact outcome_relax _ _

/-! ### Whole texts -/

section Complete

variable {β : Type} {stop : Nat} {read : (tokens : List Token) → Reading β tokens.length}

/-- What has been read is all that there is, or the next token tells why it is not. -/
theorem outcome_complete_cons {first : Token} {others : List Token} :
    (complete stop read (first :: others)).outcome =
      match (read (first :: others)).outcome with
      | .error fault => .error fault
      | .ok (value, []) => .ok (value, [])
      | .ok (_, next :: rest) =>
          if next.kind = .closeParen then
            .error (⟨next.span, .unclosedParenthesis false⟩, next :: rest)
          else .error (⟨next.span, .expectedEnd⟩, next :: rest) := by
  rw [complete, if_neg (by simp)]
  cases read (first :: others) with
  | failed => rfl
  | done value rest =>
    cases rest with
    | nil => rfl
    | cons next rest =>
      dsimp only [outcome_done]
      split <;> rfl

end Complete

/-- A text is a formula exactly if the expression that its tokens begin with takes them all. -/
theorem parse_eq_ok_iff_outcome (text : String) (formula : Formula α) :
    parse text = .ok formula ↔
      (expression (utf8Length text.toList) (significant (tokenize text)) :
        Reading (Formula α) _).outcome = .ok (formula, []) := by
  rw [parse, toExcept_eq]
  generalize significant (tokenize text) = tokens
  cases tokens with
  | nil =>
    rw [outcome_expression, reach, outcome_operand_of_not_minus (by simp), primary, complete]
    simp [Except.bind, Except.map, Except.mapError]
  | cons first others =>
    rw [outcome_complete_cons]
    cases (expression (utf8Length text.toList) (first :: others) : Reading (Formula α) _).outcome with
    | error fault => simp [Except.map, Except.mapError]
    | ok read =>
      obtain ⟨value, rest⟩ := read
      cases rest with
      | nil => simp [Except.map, Except.mapError]
      | cons next rest =>
        -- whatever the next token is, the text goes on behind the expression
        dsimp only
        split <;> simp [Except.map, Except.mapError]

end Formula

end SymbolicCalculus
