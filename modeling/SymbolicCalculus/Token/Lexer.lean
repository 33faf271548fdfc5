/-
Module: SymbolicCalculus.Token.Lexer
Layer: Text
Purpose: Cutting a text into tokens. At every place the longest piece that is a token is taken; a
  character that begins no token becomes a token of its own, so every text can be cut.
Main exports: firstToken, firstToken_lossless, tokensFrom, tokenize
-/
import SymbolicCalculus.Token

namespace SymbolicCalculus

/-- The characters between tokens. -/
def isGap (c : Char) : Bool := c == ' ' || c == '\t' || c == '\r' || c == '\n'

/-- The characters that a name begins with. -/
def isNameStart (c : Char) : Bool := c.isAlpha || c == '_'

/-- The characters that go on a name. -/
def isNameChar (c : Char) : Bool := c.isAlphanum || c == '_'

/-- The first token of a text that begins with a given character: its kind, the characters of it after
    the first one, and the text after it. -/
structure FirstToken where
  kind : TokenKind
  tail : List Char
  rest : List Char
deriving DecidableEq, Repr, Inhabited

/-- The first token takes all characters of one class. -/
def FirstToken.run (kind : TokenKind) (goesOn : Char → Bool) (cs : List Char) : FirstToken :=
  ⟨kind, cs.takeWhile goesOn, cs.dropWhile goesOn⟩

/-- The first token of the text `c :: cs`. A point makes a number of the digits next to it, and it
    belongs to the digits before it rather than to those behind it. -/
def firstToken (c : Char) (cs : List Char) : FirstToken :=
  if isGap c then .run .blank isGap cs
  else if isNameStart c then .run .name isNameChar cs
  else if c.isDigit then
    match cs.dropWhile Char.isDigit with
    | '.' :: after =>
        ⟨.float, cs.takeWhile Char.isDigit ++ '.' :: after.takeWhile Char.isDigit,
          after.dropWhile Char.isDigit⟩
    | after => ⟨.int, cs.takeWhile Char.isDigit, after⟩
  else if c == '.' && !(cs.takeWhile Char.isDigit).isEmpty then .run .float Char.isDigit cs
  else ⟨(TokenKind.ofChar? c).getD .symbol, [], cs⟩

/-- The first token and the text after it are the whole text. -/
theorem firstToken_lossless (c : Char) (cs : List Char) :
    (firstToken c cs).tail ++ (firstToken c cs).rest = cs := by
  unfold firstToken
  split
  · simp [FirstToken.run]
  · split
    · simp [FirstToken.run]
    · split
      · split
        · next after found =>
          rw [List.append_assoc, List.cons_append, List.takeWhile_append_dropWhile, ← found,
            List.takeWhile_append_dropWhile]
        · simp
      · split <;> simp [FirstToken.run]

theorem firstToken_rest_length (c : Char) (cs : List Char) :
    (firstToken c cs).rest.length < (c :: cs).length := by
  have lengths := congrArg List.length (firstToken_lossless c cs)
  simp only [List.length_append] at lengths
  simp only [List.length_cons]
  omega

/-- The tokens of a text whose first character stands at the place `start`. -/
def tokensFrom (start : Nat) : List Char → List Token
  | [] => []
  | c :: cs =>
      let first := firstToken c cs
      let lexeme := c :: first.tail
      let stop := start + utf8Length lexeme
      ⟨first.kind, ⟨start, stop⟩, String.ofList lexeme⟩ :: tokensFrom stop first.rest
termination_by cs => cs.length
decreasing_by exact firstToken_rest_length c cs

/-- The tokens of a text. -/
def tokenize (text : String) : List Token := tokensFrom 0 text.toList

end SymbolicCalculus
