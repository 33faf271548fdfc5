/-
Module: SymbolicCalculus.Text.Quoted
Layer: Text
Purpose: A text between quotation marks, on one line and with nothing in it that cannot be seen: the
  marks themselves, backslashes and line breaks are written with a backslash, and characters that do
  not show by themselves by their code point in hexadecimal digits.
Main exports: isPlain, quotedChar, quoted
-/
import SymbolicCalculus.Text.Combining
import SymbolicCalculus.Text.Invisible

namespace SymbolicCalculus

/-- The character shows by itself, also without a character before it. -/
def isPlain (c : Char) : Bool := !isCombining c && !isInvisible c

/-- How one character is written inside quotation marks. -/
def quotedChar : Char → List Char
  | '"' => ['\\', '"']
  | '\\' => ['\\', '\\']
  | '\n' => ['\\', 'n']
  | '\r' => ['\\', 'r']
  | '\t' => ['\\', 't']
  | '\x00' => ['\\', '0']
  | c =>
      if isPlain c then [c]
      else "\\u\x7b".toList ++ Nat.toDigits 16 c.toNat ++ ['}']

/-- The text between quotation marks. -/
def quoted (text : String) : String :=
  String.ofList ('"' :: (text.toList.flatMap quotedChar ++ ['"']))

end SymbolicCalculus
