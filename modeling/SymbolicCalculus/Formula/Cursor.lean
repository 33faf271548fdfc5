/-
Module: SymbolicCalculus.Formula.Cursor
Layer: Formulas
Purpose: Reading formulas at a cursor. All tokens of a text stay in one row, blanks among them, and a
  cursor tells which of them comes next. A token is looked at, taken, or taken on trial and put back. The
  loops over operators and arguments go on as long as what they look at allows it, and nothing in the row
  counts down in them; a run is told how deep it may go, and has no value if it would have to go deeper.
Main exports: Attempt, Formula.current?, Formula.nextAt, Formula.wordAt, Formula.signAt, Formula.literalAt,
  Formula.groupAt, Formula.primaryAt, Formula.operandAt, Formula.climbAt, Formula.expressionAt,
  Formula.invocationAt, Formula.completeAt
-/
import SymbolicCalculus.Formula.Parser

namespace SymbolicCalculus

/-- What came of reading a `β` at a cursor. -/
inductive Attempt (β : Type) where
  /-- The part was read, and the cursor stands behind it. -/
  | done (value : β) (behind : Nat)
  /-- The part could not be read, and this is where the cursor was left. -/
  | failed (error : Located ParseCause) (left : Nat)
deriving DecidableEq, Repr

namespace Attempt

variable {β γ : Type}

/-- The attempt with another value in it. -/
def map (make : β → γ) : Attempt β → Attempt γ
  | done value behind => done (make value) behind
  | failed error left => failed error left

/-- After a failure, the cursor is put back. -/
def orBackTo (cursor : Nat) : Attempt β → Attempt β
  | failed error _ => failed error cursor
  | success => success

/-- The value that was read. -/
def value? : Attempt β → Option β
  | done value _ => some value
  | failed _ _ => none

/-- The value that was read, or the reason why there is none. -/
def toExcept : Attempt β → Except (Located ParseCause) β
  | done value _ => .ok value
  | failed error _ => .error error

end Attempt

namespace Formula

/-! ### Single tokens -/

/-- The next token that is not a blank. -/
def current? (tokens : List Token) (cursor : Nat) : Option Token :=
  (tokens.drop cursor).find? fun token => token.kind != .blank

/-- The next token that is not a blank is taken, with the blanks before it. -/
def nextAt (tokens : List Token) (cursor : Nat) : Attempt Token :=
  match found : tokens[cursor]? with
  | none => .failed (atEnd (endOf tokens) .unexpectedEnd) cursor
  | some token =>
      have inside : cursor < tokens.length := (List.getElem?_eq_some_iff.1 found).1
      if token.kind = .blank then nextAt tokens (cursor + 1) else .done token (cursor + 1)
termination_by tokens.length - cursor

/-- A token of a given kind. A token of another kind counts as taken. -/
def wordAt (kind : TokenKind) (tokens : List Token) (cursor : Nat) : Attempt Token :=
  match nextAt tokens cursor with
  | .failed error left => .failed error left
  | .done found behind =>
      if found.kind = kind then .done found behind else .failed (unexpected [kind] found) behind

/-- The sign of a binary operator, with its place. -/
def signAt (tokens : List Token) (cursor : Nat) : Attempt (BinaryOp × Span) :=
  match nextAt tokens cursor with
  | .failed error left => .failed error left
  | .done found behind =>
      match found.kind.binaryOp? with
      | some op => .done (op, found.span) behind
      | none => .failed (unexpected [.caret, .star, .slash, .plus, .minus] found) behind

/-- A name, with its place. -/
def nameAt (tokens : List Token) (cursor : Nat) : Attempt (String × Span) :=
  ((wordAt .name tokens cursor).orBackTo cursor).map fun found => (found.lexeme, found.span)

variable {α : Type} [Numeral α]

/-- A numeral without a point, or else one with a point. -/
def numeralTokenAt (tokens : List Token) (cursor : Nat) : Attempt Token :=
  match (wordAt .int tokens cursor).orBackTo cursor with
  | .done found behind => .done found behind
  | .failed _ left => (wordAt .float tokens left).orBackTo left

/-- A number. -/
def numeralAt (tokens : List Token) (cursor : Nat) : Attempt (Formula α) :=
  match numeralTokenAt tokens cursor with
  | .failed error left => .failed error left
  | .done found behind =>
      match Numeral.ofLiteral? found.lexeme with
      | some value => .done (.number value found.span) behind
      | none => .failed ⟨found.span, .numberOutOfRange⟩ behind

/-- A number or a name. -/
def literalAt (tokens : List Token) (cursor : Nat) : Attempt (Formula α) :=
  match current? tokens cursor with
  | none => .failed (atEnd (endOf tokens) .unexpectedEnd) cursor
  | some found =>
      match found.kind with
      | .name =>
          ((nameAt tokens cursor).orBackTo cursor).map fun (called, place) => .symbol called place
      | .int | .float => (numeralAt tokens cursor).orBackTo cursor
      | _ => .failed (unexpected [.int, .float, .name] found) cursor

/-! ### Formulas

A run may go through so many calls and rounds of loops inside one another, and no more; one that is
interrupted has no value. -/

/-- The sign behind a right operand takes it away from the operator before it. -/
def bindsTighter (next op : BinaryOp) : Bool :=
  op.precedence < next.precedence ||
    next.precedence == op.precedence && next.associativity == .right

mutual

/-- A formula in parentheses. -/
def groupAt : Nat → List Token → Nat → Option (Attempt (Formula α))
  | 0, _, _ => none
  | depth + 1, tokens, cursor =>
      match (wordAt .openParen tokens cursor).orBackTo cursor with
      | .failed error left => return .failed error left
      | .done opening inside =>
          match (wordAt .closeParen tokens inside).value? with
          | some closing => return .failed ⟨opening.span.cover closing.span, .emptyParenthesis⟩ inside
          | none => do
              match (← expressionAt depth tokens inside).orBackTo inside with
              | .failed error left => return .failed error left
              | .done inner behind =>
                  match current? tokens behind with
                  | none => return .failed ⟨opening.span, .unclosedParenthesis true⟩ behind
                  | some found =>
                      if found.kind = .closeParen then
                        return ((wordAt .closeParen tokens behind).orBackTo behind).map
                          fun closing => .paren inner (opening.span.cover closing.span)
                      else return .failed (unexpected [.closeParen] found) behind

/-- What follows the name in a call: the arguments in parentheses, if there are any. -/
def calleeAt : Nat → String → Span → List Token → Nat → Option (Attempt (Formula α))
  | 0, _, _, _, _ => none
  | depth + 1, called, place, tokens, cursor =>
      match (wordAt .openParen tokens cursor).orBackTo cursor with
      | .failed error left => return .failed error left
      | .done opening inside =>
          match (wordAt .closeParen tokens inside).value? with
          | some _ =>
              return ((wordAt .closeParen tokens inside).orBackTo inside).map fun closing =>
                .call called place [] (opening.span.cover closing.span)
          | none => do
              match ← argumentsAt depth opening.span [] tokens inside with
              | .failed error left => return .failed error left
              | .done (given, closing) behind =>
                  return .done (.call called place given (opening.span.cover closing)) behind

/-- The arguments behind those that are given already, up to the closing parenthesis, and the place of
    that. -/
def argumentsAt : Nat → Span → List (Formula α) → List Token → Nat →
    Option (Attempt (List (Formula α) × Span))
  | 0, _, _, _, _ => none
  | depth + 1, opening, given, tokens, cursor => do
      match (← expressionAt depth tokens cursor).orBackTo cursor with
      | .failed error left => return .failed error left
      | .done argument behind =>
          match current? tokens behind with
          | none => return .failed ⟨opening, .unclosedParenthesis true⟩ behind
          | some found =>
              match found.kind with
              | .comma =>
                  match (wordAt .comma tokens behind).orBackTo behind with
                  | .failed error left => return .failed error left
                  | .done _ next => argumentsAt depth opening (given ++ [argument]) tokens next
              | .closeParen =>
                  return ((wordAt .closeParen tokens behind).orBackTo behind).map
                    fun closing => (given ++ [argument], closing.span)
              | _ => return .failed (unexpected [.comma, .closeParen] found) behind

/-- A part that no operator can split: a number, a name, a call or a formula in parentheses. -/
def primaryAt : Nat → List Token → Nat → Option (Attempt (Formula α))
  | 0, _, _ => none
  | depth + 1, tokens, cursor =>
      match current? tokens cursor with
      | none => return .failed (atEnd (endOf tokens) .unexpectedEnd) cursor
      | some found =>
          match found.kind with
          | .openParen => do return (← groupAt depth tokens cursor).orBackTo cursor
          | .closeParen => return .failed ⟨found.span, .unclosedParenthesis false⟩ cursor
          | .name =>
              match (nameAt tokens cursor).orBackTo cursor with
              | .failed error left => return .failed error left
              | .done (called, place) behind =>
                  if (current? tokens behind).map Token.kind = some .openParen then
                    calleeAt depth called place tokens behind
                  else return .done (.symbol called place) behind
          | .int | .float => return (literalAt tokens cursor).orBackTo cursor
          | _ =>
              return .failed (unexpected [.int, .float, .name, .openParen, .minus] found) cursor

/-- A minus sign and all that binds tighter than it. -/
def negatedAt : Nat → List Token → Nat → Option (Attempt (Formula α))
  | 0, _, _ => none
  | depth + 1, tokens, cursor =>
      match (wordAt .minus tokens cursor).orBackTo cursor with
      | .failed error left => return .failed error left
      | .done sign behind => do
          match ← operandAt depth tokens behind with
          | .failed error left => return .failed error left
          | .done first behind =>
              match ← climbAt depth .neg first tokens behind with
              | .failed error left => return .failed error left
              | .done whole behind => return .done (.neg whole sign.span) behind

/-- An operand: one with a minus sign, or a primary part. -/
def operandAt : Nat → List Token → Nat → Option (Attempt (Formula α))
  | 0, _, _ => none
  | depth + 1, tokens, cursor =>
      match (wordAt .minus tokens cursor).value? with
      | some _ => negatedAt depth tokens cursor
      | none => do return (← primaryAt depth tokens cursor).orBackTo cursor

/-- The right operand of an operator takes in all that binds tighter than the operator, and is then put
    together with the left one. The sign behind the operand is only looked at; the climb is trusted to
    take it. -/
def rightAt : Nat → BinaryOp → Span → Formula α → Formula α → List Token → Nat →
    Option (Attempt (Formula α))
  | 0, _, _, _, _, _, _ => none
  | depth + 1, op, sign, left, right, tokens, cursor =>
      match (signAt tokens cursor).value? with
      | none => return .done (.binary op sign left right) cursor
      | some (next, _) =>
          if bindsTighter next op then do
            match ← climbAt depth next.precedence right tokens cursor with
            | .failed error left => return .failed error left
            | .done right behind => rightAt depth op sign left right tokens behind
          else return .done (.binary op sign left right) cursor

/-- All that follows an operand and binds at least as tightly as the level, put together with it. -/
def climbAt : Nat → Precedence → Formula α → List Token → Nat → Option (Attempt (Formula α))
  | 0, _, _, _, _ => none
  | depth + 1, level, left, tokens, cursor =>
      match (signAt tokens cursor).value? with
      | none => return .done left cursor
      | some (op, sign) =>
          if op.precedence < level then return .done left cursor
          else
            match (signAt tokens cursor).orBackTo cursor with
            | .failed error left => return .failed error left
            | .done _ behind => do
                match ← operandAt depth tokens behind with
                | .failed error left => return .failed error left
                | .done right behind =>
                    match ← rightAt depth op sign left right tokens behind with
                    | .failed error left => return .failed error left
                    | .done left behind => climbAt depth level left tokens behind

/-- A whole formula: an operand and all operators that follow. -/
def expressionAt : Nat → List Token → Nat → Option (Attempt (Formula α))
  | 0, _, _ => none
  | depth + 1, tokens, cursor => do
      match ← operandAt depth tokens cursor with
      | .failed error left => return .failed error left
      | .done first behind => climbAt depth .any first tokens behind

end

/-- A call: a name and its arguments. -/
def invocationAt (depth : Nat) (tokens : List Token) (cursor : Nat) : Option (Attempt (Formula α)) :=
  match (nameAt tokens cursor).orBackTo cursor with
  | .failed error left => return .failed error left
  | .done (called, place) behind => calleeAt depth called place tokens behind

/-- The part has to leave nothing but blanks behind it, and there has to be more than blanks. -/
def completeAt {β : Type} (read : List Token → Nat → Option (Attempt β)) (tokens : List Token)
    (cursor : Nat) : Option (Attempt β) :=
  if (current? tokens cursor).isNone then
    return .failed (atEnd (endOf tokens) .emptyExpression) cursor
  else do
    match ← read tokens cursor with
    | .failed error left => return .failed error left
    | .done value behind =>
        match current? tokens behind with
        | none => return .done value behind
        | some next =>
            if next.kind = .closeParen then
              return .failed ⟨next.span, .unclosedParenthesis false⟩ behind
            else return .failed ⟨next.span, .expectedEnd⟩ behind

end Formula

end SymbolicCalculus
