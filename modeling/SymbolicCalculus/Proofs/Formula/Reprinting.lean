/-
Module: SymbolicCalculus.Proofs.Formula.Reprinting
Layer: Proofs
Purpose: Formulas that were read are printed as texts that read back as the same formulas. The printer puts
  in no parentheses of its own; what it prints is read with the same grouping because each operator of a
  formula that was read has operands of the categories that the grammar asks for, and these are the ones
  that the reader finds again.
Main exports: Formula.numbers, Formula.Alike.text_eq, Grammar.readsAs_text, Formula.parse_text_of_parse
-/
import SymbolicCalculus.Formula.Printer
import SymbolicCalculus.Proofs.Double.Reading
import SymbolicCalculus.Proofs.Double.Writing
import SymbolicCalculus.Proofs.Formula.Ingredients
import SymbolicCalculus.Proofs.Formula.Pieces
import SymbolicCalculus.Proofs.Formula.Simulation

namespace SymbolicCalculus

namespace Formula

mutual

/-- The numbers in a formula, from left to right. -/
def numbers {α : Type} : Formula α → List α
  | number value _ => [value]
  | symbol _ _ => []
  | paren inner _ => inner.numbers
  | call _ _ arguments _ => numbersOfAll arguments
  | neg operand _ => operand.numbers
  | binary _ _ left right => left.numbers ++ right.numbers

/-- The numbers in a row of formulas. -/
def numbersOfAll {α : Type} : List (Formula α) → List α
  | [] => []
  | first :: others => first.numbers ++ numbersOfAll others

end

/-! ### Texts of formulas that differ in their places -/

section Texts

variable {α : Type} [Numeral α] {R : Span → Span → Prop}

theorem argumentsText_eq {row row' : List (Formula α)}
    (texts : List.Forall₂ (fun f f' => f.text = f'.text) row row') :
    argumentsText row = argumentsText row' := by
  induction texts with
  | nil => rfl
  | cons first others ih =>
    cases others with
    | nil => rw [argumentsText, argumentsText, first]
    | cons _ _ =>
      simp only [argumentsText] at ih ⊢
      rw [first, ih]

/-- The places in a formula are not printed. -/
theorem Alike.text_eq {f f' : Formula α} (alike : Alike R f f') : f.text = f'.text := by
  induction alike with
  | number | symbol => rfl
  | paren _ _ ih => rw [text, text, ih]
  | call _ count _ _ _ ih =>
    rw [text, text, argumentsText_eq (List.forall₂_iff_zip.2 ⟨count, fun mem => ih mem⟩)]
  | neg _ _ _ ih => rw [text, text, ih]
  | binary _ _ _ _ first second => rw [text, text, first, second]

end Texts

end Formula

namespace Grammar

open Formula (Alike NamesFit LiteralsFit numbers numbersOfAll argumentsText)

/-- The formula is the given one but for its places. -/
abbrev Again {α : Type} (f : Formula α) : Formula α → Prop := Alike (fun _ _ => True) f

/-- A call is the given one but for its places if the arguments are. -/
theorem again_call {α : Type} {name : String} {nameSpan nameSpan' parenSpan parenSpan' : Span}
    {row row' : List (Formula α)} (again : List.Forall₂ Again row row') :
    Again (.call name nameSpan row parenSpan) (.call name nameSpan' row' parenSpan') :=
  .called (fun _ _ _ _ _ _ => trivial) trivial again trivial

variable {α : Type} [Numeral α]

/-- The number is printed as a literal that stands for it. -/
def IsReprinted (value : α) : Prop := Numeral.ofLiteral? (Numeral.text value) = some value

/-- An operator and its operands are read as they were, if the operands are, as parts of the categories that
    the production asks for. -/
theorem readsAs_infix {level : Precedence} {c c' : Category} {sign : Sign level}
    {left : Derivation c} {right : Derivation c'} {f : Formula α}
    (read : (left.tree?.bind fun l => right.tree?.map fun r =>
      .binary sign.op sign.token.span l r) = some f)
    (numbers : ∀ value ∈ f.numbers, IsReprinted value) (whole : level ≤ c.tightest)
    (reached : ∀ op : BinaryOp, op.precedence = level →
      c'.looseness ≤ (Category.reached op.rightLevel).looseness)
    (first : ∀ {l : Formula α}, left.tree? = some l → (∀ value ∈ l.numbers, IsReprinted value) →
      ReadsAs c l.text.toList (Again l))
    (second : ∀ {r : Formula α}, right.tree? = some r → (∀ value ∈ r.numbers, IsReprinted value) →
      ReadsAs c' r.text.toList (Again r)) :
    ReadsAs (.madeBy level) f.text.toList (Again f) := by
  obtain ⟨token, op, known, rfl⟩ := sign
  obtain ⟨l, readLeft, tail⟩ := Option.bind_eq_some_iff.1 read
  obtain ⟨r, readRight, rfl⟩ := Option.map_eq_some_iff.1 tail
  obtain ⟨fitLeft, fitRight⟩ := List.forall_mem_append.1 numbers
  rw [Formula.text, String.toList_append, String.toList_append]
  exact .binary whole (reached op rfl) (first readLeft fitLeft) (second readRight fitRight)
    fun _ _ _ left right => .binary trivial left right trivial

/-- Literals are printed as digits with an optional fraction. -/
def PrintsNumerals (α : Type) [Numeral α] : Prop :=
  LiteralsFit fun value : α => Token.IsNumeral (Numeral.text value).toList

mutual

/-- What a derivation is read as is printed as a piece of its category, which is read as the same again.
    By induction on the derivation. -/
theorem readsAs_text (prints : PrintsNumerals α) :
    ∀ {c : Category} (d : Derivation c) {f : Formula α}, d.tree? = some f →
      NamesFit Token.IsIdentifier d.yield → (∀ value ∈ f.numbers, IsReprinted value) →
      ReadsAs c f.text.toList (Again f)
  | _, .sum left sign right, f, read, names, numbers =>
      readsAs_infix read numbers (by decide) (fun op => by cases op <;> decide)
        (fun readLeft => readsAs_text prints left readLeft names.parts.1)
        (fun readRight => readsAs_text prints right readRight names.parts.2)
  | _, .ofTerm term, f, read, names, numbers =>
      (readsAs_text prints term read names numbers).widen (by decide)
  | _, .product left sign right, f, read, names, numbers =>
      readsAs_infix read numbers (by decide) (fun op => by cases op <;> decide)
        (fun readLeft => readsAs_text prints left readLeft names.parts.1)
        (fun readRight => readsAs_text prints right readRight names.parts.2)
  | _, .ofUnary unary, f, read, names, numbers =>
      (readsAs_text prints unary read names numbers).widen (by decide)
  | _, .minus sign operand, f, read, names, numbers => by
      obtain ⟨g, readOperand, rfl⟩ := Option.map_eq_some_iff.1 read
      have inner :=
        readsAs_text prints operand readOperand (names.mono (List.subset_cons_self _ _)) numbers
      have negated := inner.minus fun f span again =>
        (.neg trivial again trivial : Again (.neg g sign.token.span) (.neg f span))
      simpa [Formula.text] using negated
  | _, .ofPower power, f, read, names, numbers =>
      (readsAs_text prints power read names numbers).widen (by decide)
  | _, .raised base sign exponent, f, read, names, numbers =>
      readsAs_infix read numbers (by decide) (fun op => by cases op <;> decide)
        (fun readLeft => readsAs_text prints base readLeft names.parts.1)
        (fun readRight => readsAs_text prints exponent readRight names.parts.2)
  | _, .ofPrimary primary, f, read, names, numbers =>
      (readsAs_text prints primary read names numbers).widen (by decide)
  | _, .number literal _, f, read, names, numbers => by
      obtain ⟨value, known, rfl⟩ := Option.map_eq_some_iff.1 read
      exact .numeral (prints _ _ known) (numbers value (List.mem_singleton_self _)) fun _ =>
        .number trivial
  | _, .name word, f, read, names, numbers => by
      cases read
      exact .name (names _ (List.mem_singleton_self _) word.is_kind) fun _ => .symbol trivial
  | _, .group opening inner closing, f, read, names, numbers => by
      obtain ⟨g, readInner, rfl⟩ := Option.map_eq_some_iff.1 read
      have inside := readsAs_text prints inner readInner names.inside numbers
      have grouped := inside.paren fun f span again =>
        (.paren again trivial : Again (.paren g (opening.token.span.cover closing.token.span))
          (.paren f span))
      simpa [Formula.text] using grouped
  | _, .emptyCall word opening closing, f, read, names, numbers => by
      cases read
      have identifier := names _ (List.mem_cons_self ..) word.is_kind
      have called : ReadsAs .primary (word.token.lexeme.toList ++ '(' :: [')'])
          (Again (.call word.token.lexeme word.token.span []
            (opening.token.span.cover closing.token.span) : Formula α)) :=
        .emptyCall identifier fun _ _ => again_call .nil
      simpa [Formula.text, argumentsText] using called
  | _, .call word opening given closing, f, read, names, numbers => by
      obtain ⟨fs, readGiven, rfl⟩ := Option.map_eq_some_iff.1 read
      have identifier := names _ (List.mem_cons_self ..) word.is_kind
      have inside := rowReadsAs_text prints given readGiven
        (names.mono (List.subset_cons_self _ _)).inside numbers
      have called : ReadsAs .primary
          (word.token.lexeme.toList ++ '(' :: ((argumentsText fs).toList ++ [')']))
          (Again (.call word.token.lexeme word.token.span fs
            (opening.token.span.cover closing.token.span))) :=
        .call identifier inside fun _ _ _ => again_call
      simpa [Formula.text] using called

theorem rowReadsAs_text (prints : PrintsNumerals α) :
    ∀ (given : Arguments) {fs : List (Formula α)}, given.trees? = some fs →
      NamesFit Token.IsIdentifier given.yield → (∀ value ∈ numbersOfAll fs, IsReprinted value) →
      RowReadsAs (argumentsText fs).toList (List.Forall₂ Again fs)
  | .last argument, fs, read, names, numbers => by
      obtain ⟨g, readArgument, rfl⟩ := Option.map_eq_some_iff.1 read
      rw [numbersOfAll, numbersOfAll, List.append_nil] at numbers
      exact .last (readsAs_text prints argument readArgument names numbers) fun _ again =>
        .cons again .nil
  | .more argument comma others, fs, read, names, numbers => by
      obtain ⟨g, readArgument, tail⟩ := Option.bind_eq_some_iff.1 read
      obtain ⟨gs, readOthers, rfl⟩ := Option.map_eq_some_iff.1 tail
      obtain ⟨first, rest⟩ := List.forall_mem_append.1 numbers
      have row : RowReadsAs (g.text.toList ++ ',' :: ' ' :: (argumentsText gs).toList)
          (List.Forall₂ Again (g :: gs)) :=
        .more (readsAs_text prints argument readArgument names.parts.1 first)
          (rowReadsAs_text prints others readOthers names.parts.2 rest) fun _ _ => .cons
      obtain ⟨next, more, rfl⟩ := List.exists_cons_of_ne_nil (others.ne_nil_of_trees? readOthers)
      simpa [argumentsText] using row

end

end Grammar

namespace Formula

open Grammar

/-- Machine numbers that literals stand for are printed without a sign. -/
theorem printsNumerals : PrintsNumerals Double := by
  intro literal value known
  exact Double.isNumeral_text (Double.unsigned_of_ofLiteral? known).1
    (Double.hasMinus_of_ofLiteral? known)

/-- A formula that was read from a text is printed as a text from which the same formula is read, but for
    its places, and which is printed as it is. What is assumed is only that the digits of the numbers in
    the formula read back. -/
theorem parse_text_of_parse {text : String} {f : Formula Double} (read : parse text = .ok f)
    (readsBack : ∀ value ∈ f.numbers, Double.ofLiteral? value.text = some value) :
    ∃ again, parse f.text = .ok again ∧ Alike (fun _ _ => True) f again ∧ again.text = f.text := by
  obtain ⟨d, yields, tree⟩ := (parse_eq_ok_iff_derives text f).1 read
  have names : NamesFit Token.IsIdentifier d.yield := yields ▸ namesFit_isIdentifier text
  obtain ⟨again, parsed, alike⟩ := (readsAs_text printsNumerals d tree names readsBack).exists_parse
  exact ⟨again, parsed, alike, alike.text_eq.symm⟩

/-- In `--x^ - 2.50` a second sign stands before the power, and another one before its exponent; the blanks
    and the last digit are not printed. -/
theorem parse_text_of_parse_signs :
    ∃ f again : Formula Double, parse "--x^ - 2.50" = .ok f ∧ f.text = "--x^-2.5" ∧
      parse f.text = .ok again ∧ Alike (fun _ _ => True) f again ∧ again.text = f.text := by
  have tokens : significant (tokenize "--x^ - 2.50") =
      [⟨.minus, ⟨0, 1⟩, "-"⟩, ⟨.minus, ⟨1, 2⟩, "-"⟩, ⟨.name, ⟨2, 3⟩, "x"⟩, ⟨.caret, ⟨3, 4⟩, "^"⟩,
        ⟨.minus, ⟨5, 6⟩, "-"⟩, ⟨.float, ⟨7, 11⟩, "2.50"⟩] := by
    decide +kernel
  have literal : Numeral.ofLiteral? "2.50" = some (Double.ofFloat 2.5) := by decide +kernel
  have base : Derives .primary [⟨.name, ⟨2, 3⟩, "x"⟩] (.symbol "x" ⟨2, 3⟩ : Formula Double) :=
    .symbol rfl
  have number : Derives .unary [⟨.float, ⟨7, 11⟩, "2.50"⟩]
      (.number (Double.ofFloat 2.5) ⟨7, 11⟩ : Formula Double) :=
    (Derives.number (.inr rfl) literal).widen (by decide)
  have exponent : Derives .unary [⟨.minus, ⟨5, 6⟩, "-"⟩, ⟨.float, ⟨7, 11⟩, "2.50"⟩] _ :=
    number.minus rfl
  have power : Derives .unary ([⟨.name, ⟨2, 3⟩, "x"⟩] ++ ⟨.caret, ⟨3, 4⟩, "^"⟩ :: _) _ :=
    (Derives.raised ⟨⟨.caret, ⟨3, 4⟩, "^"⟩, .pow, rfl, rfl⟩ base exponent).widen (by decide)
  have signed : Derives .unary (⟨.minus, ⟨1, 2⟩, "-"⟩ :: _) _ := power.minus rfl
  have whole : Derives .unary (⟨.minus, ⟨0, 1⟩, "-"⟩ :: _) _ := signed.minus rfl
  have read := (parse_eq_ok_iff_derives "--x^ - 2.50" _).2 (tokens ▸ whole.widen (by decide))
  have digits : (Double.ofFloat 2.5).text = "2.5" := by decide +kernel
  obtain ⟨again, parsed, alike, same⟩ := parse_text_of_parse read fun value mem => by
    rw [List.mem_singleton.1 mem, digits]
    decide +kernel
  refine ⟨_, again, read, ?_, parsed, alike, same⟩
  simp only [text]
  change _ ++ (_ ++ (_ ++ _ ++ (_ ++ (Double.ofFloat 2.5).text))) = _
  rw [digits]
  rfl

end Formula

end SymbolicCalculus
