/-
Module: SymbolicCalculus.Formula.Parser
Layer: Formulas
Purpose: Reading formulas from tokens. Sums and products group to the left and powers to the right; a
  minus sign before an operand binds looser than a power and tighter than a product. The readers work on
  the significant tokens of a text; `stop` is the place at which the text ends.
Main exports: Formula.token, Formula.binarySign, Formula.minusSign, Formula.numeral, Formula.name,
  Formula.literal, Formula.group, Formula.callee, Formula.primary, Formula.operand, Formula.climb,
  Formula.expression, Formula.complete, Formula.parse
-/
import SymbolicCalculus.Formula
import SymbolicCalculus.Formula.Reading
import SymbolicCalculus.Scalar
import SymbolicCalculus.Token.Lexer

namespace SymbolicCalculus.Formula

/-- The text ends too early. -/
def atEnd (stop : Nat) (cause : ParseCause) : Located ParseCause := ⟨.point stop, cause⟩

/-- The token is none of the expected kinds. -/
def unexpected (expected : List TokenKind) (token : Token) : Located ParseCause :=
  ⟨token.span, .unexpectedToken expected token.kind⟩

/-! ### What is left gets shorter

Each statement says of one reader that it leaves fewer tokens than it was given. -/

section Lengths

variable {first : Token} {tokens rest left last inside : List Token}

theorem shorter_rest : rest.length < (first :: rest).length := Nat.lt_succ_self rest.length

theorem shorter_tail : inside.tail.length < (first :: inside).length := by
  simp only [List.length_tail, List.length_cons]; omega

theorem shorter_inside (shorter : rest.length < inside.length) :
    rest.length < (first :: inside).length :=
  Nat.lt_succ_of_lt shorter

theorem shorter_beyond {closing : Token} (shorter : (closing :: rest).length < inside.length) :
    rest.length < inside.length :=
  Nat.lt_trans shorter_rest shorter

theorem shorter_group {closing : Token} (shorter : (closing :: rest).length < inside.length) :
    rest.length < (first :: inside).length :=
  shorter_inside (shorter_beyond shorter)

theorem shorter_signed (shorter : left.length < rest.length) (fewer : last.length < left.length + 1) :
    last.length < (first :: rest).length := by
  simp only [List.length_cons]; omega

theorem shorter_applied (shorter : left.length < rest.length)
    (fewer : last.length < left.length + 1) : last.length + 1 ≤ (first :: rest).length + 1 := by
  simp only [List.length_cons]; omega

end Lengths

/-! ### Single tokens

A token that is not the right one counts as taken, unless the reader puts it back. -/

/-- A token of a given kind. -/
def token (stop : Nat) (kind : TokenKind) : (tokens : List Token) → Reading Token tokens.length
  | [] => .failed (atEnd stop .unexpectedEnd) []
  | found :: rest =>
      if found.kind = kind then .done found rest shorter_rest
      else .failed (unexpected [kind] found) rest

/-- The sign of a binary operator, with its place. -/
def binarySign (stop : Nat) : (tokens : List Token) → Reading (BinaryOp × Span) tokens.length
  | [] => .failed (atEnd stop .unexpectedEnd) []
  | found :: rest =>
      match found.kind.binaryOp? with
      | some op => .done (op, found.span) rest shorter_rest
      | none => .failed (unexpected [.caret, .star, .slash, .plus, .minus] found) rest

/-- The minus sign before an operand, with its place. -/
def minusSign (stop : Nat) (tokens : List Token) : Reading Span tokens.length :=
  (token stop .minus tokens).map Token.span

/-- A name, with its place. -/
def name (stop : Nat) (tokens : List Token) : Reading (String × Span) tokens.length :=
  ((token stop .name tokens).map fun found => (found.lexeme, found.span)).orBackTo tokens

variable {α : Type} [Numeral α]

/-- A number, written with or without a point. -/
def numeral (stop : Nat) : (tokens : List Token) → Reading (Formula α) tokens.length
  | [] => .failed (atEnd stop .unexpectedEnd) []
  | found :: rest =>
      if found.kind = .int ∨ found.kind = .float then
        match Numeral.ofLiteral? found.lexeme with
        | some value => .done (.number value found.span) rest shorter_rest
        | none => .failed ⟨found.span, .numberOutOfRange⟩ rest
      else .failed (unexpected [.float] found) (found :: rest)

/-- A number or a name. -/
def literal (stop : Nat) : (tokens : List Token) → Reading (Formula α) tokens.length
  | [] => .failed (atEnd stop .unexpectedEnd) []
  | found :: rest =>
      match found.kind with
      | .name => .done (.symbol found.lexeme found.span) rest shorter_rest
      | .int | .float => (numeral stop (found :: rest)).orBackTo (found :: rest)
      | _ => .failed (unexpected [.int, .float, .name] found) (found :: rest)

/-! ### Formulas

The readers call each other on ever fewer tokens, or on the same tokens in the order in which the
termination measures rank them. -/

mutual

/-- A formula in parentheses. -/
def group (stop : Nat) : (tokens : List Token) → Reading (Formula α) tokens.length
  | [] => .failed (atEnd stop .unexpectedEnd) []
  | opening :: inside =>
      if opening.kind = .openParen then
        match inside.head? with
        | some ⟨.closeParen, span, _⟩ =>
            .failed ⟨opening.span.cover span, .emptyParenthesis⟩ inside
        | _ =>
            match expression stop inside with
            | .failed error _ => .failed error inside
            | .done _ [] _ => .failed ⟨opening.span, .unclosedParenthesis true⟩ []
            | .done inner (closing :: rest) shorter =>
                if closing.kind = .closeParen then
                  .done (.paren inner (opening.span.cover closing.span)) rest
                    (shorter_group shorter)
                else .failed (unexpected [.closeParen] closing) (closing :: rest)
      else .failed (unexpected [.openParen] opening) (opening :: inside)
termination_by tokens => (tokens.length, 0)

/-- What follows the name in a call: the arguments in parentheses, if there are any. -/
def callee (stop : Nat) (called : String) (place : Span) :
    (tokens : List Token) → Reading (Formula α) tokens.length
  | [] => .failed (atEnd stop .unexpectedEnd) []
  | opening :: inside =>
      if opening.kind = .openParen then
        match inside.head? with
        | some ⟨.closeParen, span, _⟩ =>
            .done (.call called place [] (opening.span.cover span)) inside.tail shorter_tail
        | _ =>
            match arguments stop opening.span inside with
            | .failed error rest => .failed error rest
            | .done (given, closing) rest shorter =>
                .done (.call called place given (opening.span.cover closing)) rest
                  (shorter_inside shorter)
      else .failed (unexpected [.openParen] opening) (opening :: inside)
termination_by tokens => (tokens.length, 0)

/-- The arguments of a call up to the closing parenthesis, and the place of that. -/
def arguments (stop : Nat) (opening : Span) (tokens : List Token) :
    Reading (List (Formula α) × Span) tokens.length :=
  match expression stop tokens with
  | .failed error _ => .failed error tokens
  | .done _ [] _ => .failed ⟨opening, .unclosedParenthesis true⟩ []
  | .done first (found :: rest) shorter =>
      have fewer : rest.length < tokens.length := shorter_beyond shorter
      match found.kind with
      | .closeParen => .done ([first], found.span) rest fewer
      | .comma =>
          match arguments stop opening rest with
          | .failed error left => .failed error left
          | .done (others, closing) left shorter =>
              .done (first :: others, closing) left (Nat.lt_trans shorter fewer)
      | _ => .failed (unexpected [.comma, .closeParen] found) (found :: rest)
termination_by (tokens.length, 4)

/-- A part that no operator can split: a number, a name, a call or a formula in parentheses. A name
    right before an opening parenthesis is always a call. -/
def primary (stop : Nat) : (tokens : List Token) → Reading (Formula α) tokens.length
  | [] => .failed (atEnd stop .unexpectedEnd) []
  | found :: rest =>
      match found.kind with
      | .openParen => (group stop (found :: rest)).orBackTo (found :: rest)
      | .closeParen => .failed ⟨found.span, .unclosedParenthesis false⟩ (found :: rest)
      | .name =>
          match rest.head? with
          | some ⟨.openParen, _, _⟩ =>
              (callee stop found.lexeme found.span rest).relax (Nat.le_of_lt shorter_rest)
          | _ => .done (.symbol found.lexeme found.span) rest shorter_rest
      | .int | .float => (numeral stop (found :: rest)).orBackTo (found :: rest)
      | _ =>
          .failed (unexpected [.int, .float, .name, .openParen, .minus] found) (found :: rest)
termination_by tokens => (tokens.length, 1)

/-- An operand: a primary part, or a minus sign and all that binds tighter than it. -/
def operand (stop : Nat) (tokens : List Token) : Reading (Formula α) tokens.length :=
  match tokens with
  | ⟨.minus, sign, _⟩ :: rest =>
      match operand stop rest with
      | .failed error left => .failed error left
      | .done first left shorter =>
          match climb stop .neg first left with
          | .failed error left => .failed error left
          | .done whole left fewer =>
              .done (.neg whole sign) left (shorter_signed shorter fewer)
  | tokens => (primary stop tokens).orBackTo tokens
termination_by (tokens.length, 2)

/-- All that follows an operand and binds at least as tightly as the level, put together with it. -/
def climb (stop : Nat) (level : Precedence) (left : Formula α) (tokens : List Token) :
    Reading (Formula α) (tokens.length + 1) :=
  match tokens with
  | [] => .done left [] (Nat.lt_succ_self _)
  | sign :: rest =>
      match sign.kind.binaryOp? with
      | none => .done left (sign :: rest) (Nat.lt_succ_self _)
      | some op =>
          if op.precedence < level then .done left (sign :: rest) (Nat.lt_succ_self _)
          else
            match operand stop rest with
            | .failed error remaining => .failed error remaining
            | .done first remaining shorter =>
                match climb stop op.rightLevel first remaining with
                | .failed error remaining => .failed error remaining
                | .done right remaining fewer =>
                    (climb stop level (.binary op sign.span left right) remaining).relax
                      (shorter_applied shorter fewer)
termination_by (tokens.length, 0)

/-- A whole formula: an operand and all operators that follow. -/
def expression (stop : Nat) (tokens : List Token) : Reading (Formula α) tokens.length :=
  match operand stop tokens with
  | .failed error rest => .failed error rest
  | .done first rest shorter => (climb stop .any first rest).relax (Nat.succ_le_of_lt shorter)
termination_by (tokens.length, 3)

end

/-- A call: a name and its arguments. -/
def invocation (stop : Nat) (tokens : List Token) : Reading (Formula α) tokens.length :=
  match name stop tokens with
  | .failed error rest => .failed error rest
  | .done (called, place) rest shorter =>
      (callee stop called place rest).relax (Nat.le_of_lt shorter)

/-- The reader has to use up all tokens, and there has to be one. -/
def complete {β : Type} (stop : Nat) (read : (tokens : List Token) → Reading β tokens.length)
    (tokens : List Token) : Reading β tokens.length :=
  if tokens.isEmpty then .failed (atEnd stop .emptyExpression) tokens
  else
    match read tokens with
    | .done value [] shorter => .done value [] shorter
    | .done _ (next :: rest) _ =>
        if next.kind = .closeParen then
          .failed ⟨next.span, .unclosedParenthesis false⟩ (next :: rest)
        else .failed ⟨next.span, .expectedEnd⟩ (next :: rest)
    | .failed error rest => .failed error rest

/-- The formula that a text is. -/
def parse (text : String) : Except (Located ParseCause) (Formula α) :=
  let stop := utf8Length text.toList
  (complete stop (expression stop) (significant (tokenize text))).toExcept

end SymbolicCalculus.Formula
