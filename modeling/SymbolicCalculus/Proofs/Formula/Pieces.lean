/-
Module: SymbolicCalculus.Proofs.Formula.Pieces
Layer: Proofs
Purpose: Printed pieces and what they are read as. A piece of a text is read as a part of its category
  wherever the text goes on apart from it; the statements here say so of every way in which the printers
  put pieces together, whatever is to be said of the formulas that the pieces are read as.
Main exports: Grammar.ReadsAs, Grammar.RowReadsAs, ReadsAs.blank, ReadsAs.numeral, ReadsAs.name,
  ReadsAs.paren, ReadsAs.minus, ReadsAs.binary, ReadsAs.call, ReadsAs.exists_parse
-/
import SymbolicCalculus.Proofs.Formula.Parsing
import SymbolicCalculus.Proofs.Token.Lexing

namespace SymbolicCalculus

namespace Grammar

theorem looseness_le_expr (c : Category) : c.looseness ≤ Category.expr.looseness := by
  cases c <;> decide

theorem apart_closing (rest : List Char) : Apart (')' :: rest) :=
  apart_cons rest (by decide) (by decide)

/-! ### Printed operators -/

/-- A printed operator is one significant token. -/
theorem significant_spaced (op : BinaryOp) (start : Nat) (rest : List Char) :
    ∃ sign : Token, sign.kind.binaryOp? = some op ∧
      significant (tokensFrom start (op.spaced.toList ++ rest)) =
        sign :: significant (tokensFrom (start + utf8Length op.spaced.toList) rest) := by
  cases op with
  | add =>
    refine ⟨tokenAt (start + ' '.utf8Size) .plus ['+'], rfl, ?_⟩
    change significant (tokensFrom start (' ' :: '+' :: ' ' :: rest)) = _
    rw [significant_blank, significant_sign _ _ rfl, significant_blank]
    rfl
  | sub =>
    refine ⟨tokenAt (start + ' '.utf8Size) .minus ['-'], rfl, ?_⟩
    change significant (tokensFrom start (' ' :: '-' :: ' ' :: rest)) = _
    rw [significant_blank, significant_sign _ _ rfl, significant_blank]
    rfl
  | mul =>
    refine ⟨tokenAt (start + ' '.utf8Size) .star ['*'], rfl, ?_⟩
    change significant (tokensFrom start (' ' :: '*' :: ' ' :: rest)) = _
    rw [significant_blank, significant_sign _ _ rfl, significant_blank]
    rfl
  | div =>
    refine ⟨tokenAt (start + ' '.utf8Size) .slash ['/'], rfl, ?_⟩
    change significant (tokensFrom start (' ' :: '/' :: ' ' :: rest)) = _
    rw [significant_blank, significant_sign _ _ rfl, significant_blank]
    rfl
  | pow =>
    refine ⟨tokenAt start .caret ['^'], rfl, ?_⟩
    change significant (tokensFrom start ('^' :: rest)) = _
    rw [significant_sign _ _ rfl]
    rfl

theorem apart_spaced (op : BinaryOp) (rest : List Char) : Apart (op.spaced.toList ++ rest) := by
  cases op <;> exact apart_cons _ (by decide) (by decide)

/-! ### Pieces of a text -/

section Pieces

variable {α : Type} [Numeral α] {c c' : Category} {piece left right : List Char}
  {fits fits' made : Formula α → Prop}

/-- The piece of a text is read as a part of the category with the property, wherever the text goes on
    apart from it. -/
def ReadsAs (c : Category) (piece : List Char) (fits : Formula α → Prop) : Prop :=
  ∀ (start : Nat) (rest : List Char), Apart rest →
    ∃ (tokens : List Token) (f : Formula α),
      significant (tokensFrom start (piece ++ rest)) =
        tokens ++ significant (tokensFrom (start + utf8Length piece) rest) ∧
      Derives c tokens f ∧ fits f

theorem ReadsAs.widen (bound : c.looseness ≤ c'.looseness) (reads : ReadsAs c piece fits) :
    ReadsAs c' piece fits := by
  intro start rest apart
  obtain ⟨tokens, f, split, derives, holds⟩ := reads start rest apart
  exact ⟨tokens, f, split, derives.widen bound, holds⟩

/-- White space before a piece does not matter. -/
theorem ReadsAs.blank (reads : ReadsAs c piece fits) : ReadsAs c (' ' :: piece) fits := by
  intro start rest apart
  obtain ⟨tokens, f, split, derives, holds⟩ := reads (start + ' '.utf8Size) rest apart
  refine ⟨tokens, f, ?_, derives, holds⟩
  rw [List.cons_append, significant_blank, split, Nat.add_assoc]
  rfl

theorem ReadsAs.numeral {value : α} (numeral : Token.IsNumeral (Numeral.text value).toList)
    (read : Numeral.ofLiteral? (Numeral.text value) = some value)
    (holds : ∀ span, fits (.number value span)) :
    ReadsAs .primary (Numeral.text value).toList fits := by
  intro start rest apart
  obtain ⟨kind, numeric, split⟩ := tokensFrom_numeral start numeral apart
  have visible : kind ≠ .blank := by
    rintro rfl
    rcases numeric with other | other <;> cases other
  let literal := tokenAt start kind (Numeral.text value).toList
  have derives : Derives .primary [literal] (.number value literal.span : Formula α) :=
    .number numeric (by rw [lexeme_tokenAt]; exact read)
  rw [split, significant_tokenAt _ _ _ visible]
  exact ⟨[literal], _, rfl, derives, holds _⟩

theorem ReadsAs.name {name : String} (identifier : Token.IsIdentifier name)
    (holds : ∀ span, fits (.symbol name span)) : ReadsAs .primary name.toList fits := by
  intro start rest apart
  let word := tokenAt start .name name.toList
  have derives : Derives .primary [word] (.symbol word.lexeme word.span : Formula α) :=
    .symbol rfl
  rw [lexeme_tokenAt] at derives
  rw [tokensFrom_identifier start identifier apart, significant_tokenAt _ _ _ (by decide)]
  exact ⟨[word], _, rfl, derives, holds word.span⟩

theorem ReadsAs.paren (reads : ReadsAs c piece fits)
    (holds : ∀ f span, fits f → made (.paren f span)) :
    ReadsAs .primary ('(' :: (piece ++ [')'])) made := by
  intro start rest apart
  obtain ⟨tokens, f, split, derives, inside⟩ :=
    reads (start + utf8Length ['(']) (')' :: rest) (apart_closing rest)
  have opens : (tokenAt start .openParen ['(']).kind = .openParen := rfl
  have closes : (tokenAt (start + utf8Length ['('] + utf8Length piece) .closeParen [')']).kind =
      .closeParen := rfl
  refine ⟨_, _, ?_, (derives.widen (looseness_le_expr c)).paren opens closes, holds _ _ inside⟩
  rw [List.cons_append, significant_sign start _ rfl, List.append_assoc, List.singleton_append,
    split, significant_sign _ _ rfl]
  simp [utf8Length, utf8Length_append, Nat.add_assoc]

theorem ReadsAs.minus (reads : ReadsAs .unary piece fits)
    (holds : ∀ f span, fits f → made (.neg f span)) : ReadsAs .unary ('-' :: piece) made := by
  intro start rest apart
  obtain ⟨tokens, f, split, derives, inside⟩ := reads (start + utf8Length ['-']) rest apart
  have is_minus : (tokenAt start .minus ['-']).kind = .minus := rfl
  refine ⟨_, _, ?_, derives.minus is_minus, holds _ _ inside⟩
  rw [List.cons_append, significant_sign start _ rfl, split]
  simp [utf8Length, Nat.add_assoc]

theorem ReadsAs.binary {op : BinaryOp} (whole : op.precedence ≤ c.tightest)
    (reached : c'.looseness ≤ (Category.reached op.rightLevel).looseness)
    (first : ReadsAs c left fits) (second : ReadsAs c' right fits')
    (holds : ∀ l r span, fits l → fits' r → made (.binary op span l r)) :
    ReadsAs (.madeBy op.precedence) (left ++ op.spaced.toList ++ right) made := by
  intro start rest apart
  obtain ⟨tokens, f, split, derives, inside⟩ :=
    first start (op.spaced.toList ++ (right ++ rest)) (apart_spaced op _)
  obtain ⟨sign, known, splitSign⟩ := significant_spaced op (start + utf8Length left) (right ++ rest)
  obtain ⟨tokens', f', split', derives', inside'⟩ :=
    second (start + utf8Length left + utf8Length op.spaced.toList) rest apart
  refine ⟨_, _, ?_, derives.binary known whole (derives'.widen reached), holds _ _ _ inside inside'⟩
  rw [List.append_assoc, List.append_assoc, split, splitSign, split']
  simp [utf8Length_append, Nat.add_assoc]

/-! ### Arguments and calls -/

/-- The piece of a text is read as arguments that have the property, up to a closing parenthesis. -/
def RowReadsAs (piece : List Char) (fits : List (Formula α) → Prop) : Prop :=
  ∀ (start : Nat) (rest : List Char), ∃ (tokens : List Token) (row : List (Formula α)),
    significant (tokensFrom start (piece ++ ')' :: rest)) =
      tokens ++ significant (tokensFrom (start + utf8Length piece) (')' :: rest)) ∧
    DerivesRow tokens row ∧ fits row

variable {rowFits rowMade : List (Formula α) → Prop}

theorem RowReadsAs.last (reads : ReadsAs c piece fits) (holds : ∀ f, fits f → rowMade [f]) :
    RowReadsAs piece rowMade := by
  intro start rest
  obtain ⟨tokens, f, split, derives, inside⟩ := reads start (')' :: rest) (apart_closing rest)
  exact ⟨tokens, [f], split, .last (derives.widen (looseness_le_expr c)), holds f inside⟩

theorem RowReadsAs.more (reads : ReadsAs c left fits) (others : RowReadsAs right rowFits)
    (holds : ∀ f row, fits f → rowFits row → rowMade (f :: row)) :
    RowReadsAs (left ++ ',' :: ' ' :: right) rowMade := by
  intro start rest
  have comma : Apart (',' :: ' ' :: (right ++ ')' :: rest)) :=
    apart_cons _ (by decide) (by decide)
  obtain ⟨tokens, f, split, derives, inside⟩ := reads start _ comma
  let separator := tokenAt (start + utf8Length left) .comma [',']
  obtain ⟨tokens', row, split', derives', inside'⟩ :=
    others (start + utf8Length left + utf8Length [','] + ' '.utf8Size) rest
  have separates : separator.kind = .comma := rfl
  refine ⟨tokens ++ separator :: tokens', f :: row, ?_,
    .more separates (derives.widen (looseness_le_expr c)) derives', holds f row inside inside'⟩
  rw [List.append_assoc, List.cons_append, List.cons_append, split, significant_sign _ _ rfl,
    significant_blank, split']
  simp [separator, utf8Length, utf8Length_append, Nat.add_assoc]

variable {name : String} {tokens : List Token}

/-- The significant tokens of a name with something in parentheses behind it. -/
theorem significant_call (start : Nat) (rest : List Char) (identifier : Token.IsIdentifier name)
    (split : significant
        (tokensFrom (start + utf8Length name.toList + utf8Length ['(']) (piece ++ ')' :: rest)) =
      tokens ++ significant (tokensFrom
        (start + utf8Length name.toList + utf8Length ['('] + utf8Length piece) (')' :: rest))) :
    significant (tokensFrom start (name.toList ++ '(' :: (piece ++ [')']) ++ rest)) =
      tokenAt start .name name.toList ::
        tokenAt (start + utf8Length name.toList) .openParen ['('] :: (tokens ++
          [tokenAt (start + utf8Length name.toList + utf8Length ['('] + utf8Length piece)
            .closeParen [')']]) ++
        significant (tokensFrom
          (start + utf8Length (name.toList ++ '(' :: (piece ++ [')']))) rest) := by
  have apart : Apart ('(' :: (piece ++ [')']) ++ rest) :=
    apart_cons _ (by decide) (by decide)
  rw [List.append_assoc, tokensFrom_identifier start identifier apart,
    significant_tokenAt _ _ _ (by decide), List.cons_append, significant_sign _ _ rfl,
    List.append_assoc, List.singleton_append, split, significant_sign _ _ rfl]
  simp [utf8Length, utf8Length_append, Nat.add_assoc]

theorem ReadsAs.call (identifier : Token.IsIdentifier name) (inside : RowReadsAs piece rowFits)
    (holds : ∀ row place span, rowFits row → made (.call name place row span)) :
    ReadsAs .primary (name.toList ++ '(' :: (piece ++ [')'])) made := by
  intro start rest apart
  obtain ⟨tokens, row, split, derives, given⟩ :=
    inside (start + utf8Length name.toList + utf8Length ['(']) rest
  have is_name : (tokenAt start .name name.toList).kind = .name := rfl
  have opens : (tokenAt (start + utf8Length name.toList) .openParen ['(']).kind = .openParen := rfl
  have closes : (tokenAt (start + utf8Length name.toList + utf8Length ['('] + utf8Length piece)
      .closeParen [')']).kind = .closeParen := rfl
  have whole := Derives.call is_name opens closes derives
  rw [lexeme_tokenAt] at whole
  exact ⟨_, _, significant_call start rest identifier split, whole, holds _ _ _ given⟩

/-- A call without arguments has nothing between its parentheses. -/
theorem ReadsAs.emptyCall (identifier : Token.IsIdentifier name)
    (holds : ∀ place span, made (.call name place [] span)) :
    ReadsAs .primary (name.toList ++ '(' :: [')']) made := by
  intro start rest apart
  have is_name : (tokenAt start .name name.toList).kind = .name := rfl
  have opens : (tokenAt (start + utf8Length name.toList) .openParen ['(']).kind = .openParen := rfl
  have closes : (tokenAt (start + utf8Length name.toList + utf8Length ['('] + utf8Length [])
      .closeParen [')']).kind = .closeParen := rfl
  have whole : Derives .primary _ (_ : Formula α) := Derives.emptyCall is_name opens closes
  rw [lexeme_tokenAt] at whole
  have nothing : significant
      (tokensFrom (start + utf8Length name.toList + utf8Length ['(']) ([] ++ ')' :: rest)) =
        [] ++ significant (tokensFrom
          (start + utf8Length name.toList + utf8Length ['('] + utf8Length []) (')' :: rest)) := rfl
  exact ⟨_, _, significant_call start rest identifier nothing, whole, holds _ _⟩

/-- A whole text that is read is parsed as a formula with the property. -/
theorem ReadsAs.exists_parse {text : String} (reads : ReadsAs c text.toList fits) :
    ∃ f, Formula.parse text = .ok f ∧ fits f := by
  obtain ⟨tokens, f, split, derives, holds⟩ := reads 0 [] apart_nil
  have whole : significant (tokenize text) = tokens := by
    rw [List.append_nil, tokensFrom] at split
    exact split.trans (List.append_nil tokens)
  exact ⟨f, (Formula.parse_eq_ok_iff_derives text f).2
    (whole ▸ derives.widen (looseness_le_expr c)), holds⟩

end Pieces

end Grammar

end SymbolicCalculus
