/-
Module: SymbolicCalculus.Token
Layer: Text
Purpose: The words of a formula. A token is a piece of the text with its place and its kind; blanks are
  tokens as well, so that the tokens of a text cover it without a gap.
Main exports: TokenKind, TokenKind.label, TokenKind.binaryOp?, Token, significant, endOf
-/
import SymbolicCalculus.Operator
import SymbolicCalculus.Text.Span

namespace SymbolicCalculus

/-- The kinds of tokens. -/
inductive TokenKind where
  /-- A run of blanks, tabs and line breaks. -/
  | blank
  | plus | minus | star | slash | caret
  | comma | openParen | closeParen
  /-- A letter or underscore with the letters, digits and underscores behind it. -/
  | name
  /-- A run of digits. -/
  | int
  /-- Digits with one point among, before or behind them. -/
  | float
  /-- A character that begins no other token. -/
  | symbol
deriving DecidableEq, Repr, Inhabited

namespace TokenKind

/-- The name of the kind in messages. -/
def label : TokenKind → String
  | blank => "Whitespace"
  | plus => "Add"
  | minus => "Sub"
  | star => "Mul"
  | slash => "Div"
  | caret => "Exp"
  | comma => "Comma"
  | openParen => "OpenParen"
  | closeParen => "CloseParen"
  | name => "Name"
  | int => "Int"
  | float => "Float"
  | symbol => "Symbol"

/-- The binary operator that the token stands for. -/
def binaryOp? : TokenKind → Option BinaryOp
  | plus => some .add
  | minus => some .sub
  | star => some .mul
  | slash => some .div
  | caret => some .pow
  | _ => none

/-- The kind of a character that is a token by itself. -/
def ofChar? : Char → Option TokenKind
  | '+' => some plus
  | '-' => some minus
  | '*' => some star
  | '/' => some slash
  | '^' => some caret
  | ',' => some comma
  | '(' => some openParen
  | ')' => some closeParen
  | _ => none

end TokenKind

/-- A piece of a text. -/
structure Token where
  kind : TokenKind
  span : Span
  lexeme : String
deriving DecidableEq, Repr, Inhabited

/-- The tokens that matter to the structure of a formula: all but the blanks. -/
def significant (tokens : List Token) : List Token :=
  tokens.filter fun token => token.kind != .blank

/-- The place behind the tokens at the front of a text. -/
def endOf (front : List Token) : Nat := (front.getLast?.map (·.span.stop)).getD 0

end SymbolicCalculus
