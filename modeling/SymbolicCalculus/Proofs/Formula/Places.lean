/-
Module: SymbolicCalculus.Proofs.Formula.Places
Layer: Proofs
Purpose: The places of the parts of a formula. Each part of a formula that was read from a text, at any
  depth, is derived from a row of neighbouring tokens: its region reaches from the first of them to the
  last, its own parts and signs stand in it one after the other, and the slice of the text under the
  region is read as that part.
Main exports: Formula.IsPartOf, Formula.Spelled, Formula.spelled_of_derives, Formula.pieces, Formula.Ordered,
  Formula.shift, Formula.places_of_parse
-/
import SymbolicCalculus.Proofs.Formula.Simulation
import SymbolicCalculus.Proofs.Token.Tiling

namespace SymbolicCalculus

open Grammar

namespace Formula

variable {α : Type}

/-! ### Parts -/

/-- The first formula is the second one or stands in it, at any depth. -/
inductive IsPartOf : Formula α → Formula α → Prop where
  | refl (f : Formula α) : IsPartOf f f
  | paren {part inner : Formula α} {span : Span} (inside : IsPartOf part inner) :
      IsPartOf part (.paren inner span)
  | argument {part given : Formula α} {name : String} {nameSpan parenSpan : Span}
      {arguments : List (Formula α)} (mem : given ∈ arguments) (inside : IsPartOf part given) :
      IsPartOf part (.call name nameSpan arguments parenSpan)
  | operand {part operand : Formula α} {signSpan : Span} (inside : IsPartOf part operand) :
      IsPartOf part (.neg operand signSpan)
  | left {part left right : Formula α} {op : BinaryOp} {opSpan : Span}
      (inside : IsPartOf part left) : IsPartOf part (.binary op opSpan left right)
  | right {part left right : Formula α} {op : BinaryOp} {opSpan : Span}
      (inside : IsPartOf part right) : IsPartOf part (.binary op opSpan left right)

/-- A region in a formula, with the text in it if that is a name or a sign. -/
structure Piece where
  span : Span
  text? : Option String

end Formula

namespace Span

/-- The first byte of a region. -/
def opening (span : Span) : Span := ⟨span.start, span.start + 1⟩

/-- The last byte of a region. -/
def closing (span : Span) : Span := ⟨span.stop - 1, span.stop⟩

end Span

namespace Formula

variable {α : Type}

/-- The operands, names and signs that a formula is put together from, from left to right. -/
def pieces : Formula α → List Piece
  | number _ span => [⟨span, none⟩]
  | symbol name span => [⟨span, some name⟩]
  | paren inner span =>
      [⟨span.opening, some "("⟩, ⟨inner.span, none⟩, ⟨span.closing, some ")"⟩]
  | call name nameSpan arguments parenSpan =>
      ⟨nameSpan, some name⟩ :: ⟨parenSpan.opening, some "("⟩ ::
        (arguments.map (fun argument => ⟨argument.span, none⟩) ++ [⟨parenSpan.closing, some ")"⟩])
  | neg operand signSpan => [⟨signSpan, some "-"⟩, ⟨operand.span, none⟩]
  | binary op opSpan left right =>
      [⟨left.span, none⟩, ⟨opSpan, some op.symbol⟩, ⟨right.span, none⟩]

/-- The pieces of the formula stand in its region one after the other, from its beginning to its end. -/
structure Ordered (f : Formula α) : Prop where
  filled : ∀ piece ∈ f.pieces, piece.span.start < piece.span.stop
  apart : f.pieces.Pairwise fun first second => first.span.Precedes second.span
  inside : ∀ piece ∈ f.pieces, f.span.start ≤ piece.span.start ∧ piece.span.stop ≤ f.span.stop
  begins : f.pieces.head?.map (·.span.start) = some f.span.start
  ends : f.pieces.getLast?.map (·.span.stop) = some f.span.stop

mutual

/-- The same formula in a text with `offset` more bytes before it. -/
def shift (offset : Nat) : Formula α → Formula α
  | number value span => number value (span.shift offset)
  | symbol name span => symbol name (span.shift offset)
  | paren inner span => paren (inner.shift offset) (span.shift offset)
  | call name nameSpan arguments parenSpan =>
      call name (nameSpan.shift offset) (shiftAll offset arguments) (parenSpan.shift offset)
  | neg operand signSpan => neg (operand.shift offset) (signSpan.shift offset)
  | binary op opSpan left right =>
      binary op (opSpan.shift offset) (left.shift offset) (right.shift offset)

/-- A row of formulas, each in a text with `offset` more bytes before it. -/
def shiftAll (offset : Nat) : List (Formula α) → List (Formula α)
  | [] => []
  | first :: others => first.shift offset :: shiftAll offset others

end

theorem eq_shiftAll {offset : Nat} {fs fs' : List (Formula α)}
    (each : List.Forall₂ (fun f f' => f' = f.shift offset) fs fs') : fs' = shiftAll offset fs := by
  induction each with
  | nil => rfl
  | cons first _ others => rw [shiftAll, first, others]

/-- Formulas whose places differ by an offset are the same up to it. -/
theorem Alike.eq_shift {offset : Nat} {f f' : Formula α}
    (alike : Alike (fun span span' => span' = span.shift offset) f f') : f' = f.shift offset := by
  induction alike with
  | number place => rw [shift, place]
  | symbol place => rw [shift, place]
  | paren _ place ih => rw [shift, ih, place]
  | neg sign _ _ ih => rw [shift, sign, ih]
  | binary sign _ _ _ first second => rw [shift, sign, first, second]
  | call named count _ closed _ ih =>
    rw [shift, named, closed, eq_shiftAll (List.forall₂_iff_zip.2 ⟨count, ih⟩)]

variable [Numeral α]

/-! ### The tokens of a formula -/

/-- The tokens are those of the formula: the signs and names of its outermost part, and rows of tokens
    that its operands are derived from. -/
def Spelled (tokens : List Token) : Formula α → Prop
  | number _ span => ∃ literal : Token, tokens = [literal] ∧ span = literal.span
  | symbol name span => ∃ word : Token, tokens = [word] ∧ name = word.lexeme ∧ span = word.span
  | paren inner span => ∃ opening own closing, tokens = opening :: (own ++ [closing]) ∧
      opening.kind = .openParen ∧ closing.kind = .closeParen ∧ Derives .expr own inner ∧
      span = opening.span.cover closing.span
  | call name nameSpan arguments parenSpan => ∃ word opening own closing,
      tokens = word :: opening :: (own ++ [closing]) ∧ opening.kind = .openParen ∧
      closing.kind = .closeParen ∧ (own = [] ∧ arguments = [] ∨ DerivesRow own arguments) ∧
      name = word.lexeme ∧ nameSpan = word.span ∧ parenSpan = opening.span.cover closing.span
  | neg operand signSpan => ∃ sign own, tokens = sign :: own ∧ sign.kind = .minus ∧
      Derives .unary own operand ∧ signSpan = sign.span
  | binary op opSpan left right => ∃ front sign back, tokens = front ++ sign :: back ∧
      sign.kind.binaryOp? = some op ∧ opSpan = sign.span ∧
      Derives .expr front left ∧ Derives .expr back right

/-- Two operands with the operator between them. -/
theorem spelled_of_operands {level : Precedence} {sign : Sign level} {c c' : Category}
    {left : Derivation c} {right : Derivation c'} {f : Formula α}
    (read : (left.tree?.bind fun l => right.tree?.map fun r =>
      .binary sign.op sign.token.span l r) = some f) :
    Spelled (left.yield ++ sign.token :: right.yield) f := by
  obtain ⟨l, readLeft, tail⟩ := Option.bind_eq_some_iff.1 read
  obtain ⟨r, readRight, rfl⟩ := Option.map_eq_some_iff.1 tail
  have first : Derives c left.yield l := ⟨left, rfl, readLeft⟩
  have second : Derives c' right.yield r := ⟨right, rfl, readRight⟩
  exact ⟨_, sign.token, _, rfl, sign.known, rfl, first.widen (by cases c <;> decide),
    second.widen (by cases c' <;> decide)⟩

theorem spelled_of_derivation {c : Category} (d : Derivation c) {f : Formula α}
    (read : d.tree? = some f) : Spelled d.yield f := by
  cases d with
  | sum left sign right => exact spelled_of_operands read
  | ofTerm term => exact spelled_of_derivation term read
  | product left sign right => exact spelled_of_operands read
  | ofUnary unary => exact spelled_of_derivation unary read
  | minus sign operand =>
    obtain ⟨inner, readInner, rfl⟩ := Option.map_eq_some_iff.1 read
    exact ⟨sign.token, operand.yield, rfl, sign.is_kind, ⟨operand, rfl, readInner⟩, rfl⟩
  | ofPower power => exact spelled_of_derivation power read
  | raised base sign exponent => exact spelled_of_operands read
  | ofPrimary primary => exact spelled_of_derivation primary read
  | number literal valid =>
    obtain ⟨value, -, rfl⟩ := Option.map_eq_some_iff.1 read
    exact ⟨literal, rfl, rfl⟩
  | name word =>
    cases read
    exact ⟨word.token, rfl, rfl, rfl⟩
  | group opening inner closing =>
    obtain ⟨inside, readInner, rfl⟩ := Option.map_eq_some_iff.1 read
    exact ⟨opening.token, inner.yield, closing.token, rfl, opening.is_kind, closing.is_kind,
      ⟨inner, rfl, readInner⟩, rfl⟩
  | emptyCall word opening closing =>
    cases read
    exact ⟨word.token, opening.token, [], closing.token, rfl, opening.is_kind, closing.is_kind,
      .inl ⟨rfl, rfl⟩, rfl, rfl, rfl⟩
  | call word opening given closing =>
    obtain ⟨row, readAll, rfl⟩ := Option.map_eq_some_iff.1 read
    exact ⟨word.token, opening.token, given.yield, closing.token, rfl, opening.is_kind,
      closing.is_kind, .inr ⟨given, rfl, readAll⟩, rfl, rfl, rfl⟩

theorem spelled_of_derives {c : Category} {tokens : List Token} {f : Formula α}
    (derives : Derives c tokens f) : Spelled tokens f := by
  obtain ⟨d, rfl, read⟩ := derives
  exact spelled_of_derivation d read

/-- A row of arguments is the last one, or one with a comma and more behind it. -/
theorem derivesRow_cases {tokens : List Token} {row : List (Formula α)}
    (derives : DerivesRow tokens row) :
    (∃ f, row = [f] ∧ Derives .expr tokens f) ∨
      ∃ own comma others f fs, tokens = own ++ comma :: others ∧ row = f :: fs ∧
        Derives .expr own f ∧ DerivesRow others fs := by
  obtain ⟨given, rfl, read⟩ := derives
  cases given with
  | last argument =>
    obtain ⟨f, readFirst, rfl⟩ := Option.map_eq_some_iff.1 read
    exact .inl ⟨f, rfl, argument, rfl, readFirst⟩
  | more argument comma others =>
    obtain ⟨f, readFirst, tail⟩ := Option.bind_eq_some_iff.1 read
    obtain ⟨fs, readRest, rfl⟩ := Option.map_eq_some_iff.1 tail
    exact .inr ⟨argument.yield, comma.token, others.yield, f, fs, rfl, rfl,
      ⟨argument, rfl, readFirst⟩, ⟨others, rfl, readRest⟩⟩

/-- Each argument is derived from neighbouring tokens of the row, one behind the other. -/
theorem exists_blocks {tokens : List Token} {row : List (Formula α)}
    (derives : DerivesRow tokens row) :
    ∃ blocks : List (List Token), blocks.flatten.Sublist tokens ∧
      (∀ block ∈ blocks, block <:+: tokens) ∧ List.Forall₂ (Derives .expr) blocks row := by
  induction row generalizing tokens with
  | nil =>
    obtain ⟨f, same, -⟩ | ⟨_, _, _, f, fs, -, same, -⟩ := derivesRow_cases derives <;> cases same
  | cons first others ih =>
    obtain ⟨f, same, single⟩ | ⟨own, comma, rest, f, fs, rfl, same, argument, behind⟩ :=
      derivesRow_cases derives
    · cases same
      exact ⟨[tokens], by simp, by simp, .cons single .nil⟩
    · cases same
      obtain ⟨blocks, within, neighbours, each⟩ := ih behind
      refine ⟨own :: blocks, (List.Sublist.refl own).append (within.cons comma), ?_,
        .cons argument each⟩
      intro block mem
      rcases List.mem_cons.1 mem with rfl | later
      · exact (List.prefix_append block _).isInfix
      · exact (neighbours block later).trans ⟨own ++ [comma], [], by simp⟩

theorem exists_block {β : Type} {belongs : List Token → β → Prop} {blocks : List (List Token)}
    {row : List β} (each : List.Forall₂ belongs blocks row) {item : β} (mem : item ∈ row) :
    ∃ block ∈ blocks, belongs block item := by
  induction each with
  | nil => cases mem
  | cons first _ ih =>
    rcases List.mem_cons.1 mem with rfl | later
    · exact ⟨_, List.mem_cons_self, first⟩
    · obtain ⟨block, within, other⟩ := ih later
      exact ⟨block, List.mem_cons_of_mem _ within, other⟩

/-- Each part of a formula is derived from neighbouring tokens. -/
theorem exists_tokens_of_part {part f : Formula α} (within : part.IsPartOf f) {c : Category}
    {tokens : List Token} (derives : Derives c tokens f) :
    ∃ own, own <:+: tokens ∧ Derives .expr own part := by
  induction within generalizing c tokens with
  | refl => exact ⟨tokens, List.infix_rfl, derives.widen (by cases c <;> decide)⟩
  | paren _ ih =>
    obtain ⟨opening, own, closing, rfl, -, -, inner, -⟩ := spelled_of_derives derives
    obtain ⟨own', infix_, part⟩ := ih inner
    exact ⟨own', infix_.trans ⟨[opening], [closing], by simp⟩, part⟩
  | argument mem _ ih =>
    obtain ⟨word, opening, own, closing, rfl, -, -, row, -⟩ := spelled_of_derives derives
    obtain ⟨-, rfl⟩ | row := row
    · cases mem
    · obtain ⟨blocks, -, neighbours, each⟩ := exists_blocks row
      obtain ⟨block, mem', argument⟩ := exists_block each mem
      obtain ⟨own', infix_, part⟩ := ih argument
      exact ⟨own', (infix_.trans (neighbours block mem')).trans
        ⟨[word, opening], [closing], by simp⟩, part⟩
  | operand _ ih =>
    obtain ⟨sign, own, rfl, -, inner, -⟩ := spelled_of_derives derives
    obtain ⟨own', infix_, part⟩ := ih inner
    exact ⟨own', infix_.trans ⟨[sign], [], by simp⟩, part⟩
  | left _ ih =>
    obtain ⟨front, sign, back, rfl, -, -, first, -⟩ := spelled_of_derives derives
    obtain ⟨own, infix_, part⟩ := ih first
    exact ⟨own, infix_.trans (List.prefix_append front _).isInfix, part⟩
  | right _ ih =>
    obtain ⟨front, sign, back, rfl, -, -, -, second⟩ := spelled_of_derives derives
    obtain ⟨own, infix_, part⟩ := ih second
    exact ⟨own, infix_.trans ⟨front ++ [sign], [], by simp⟩, part⟩

/-- The region of a formula reaches from its first token to its last. -/
theorem span_of_derives {c : Category} {tokens : List Token} {f : Formula α}
    (derives : Derives c tokens f) :
    ∃ first last, tokens.head? = some first ∧ tokens.getLast? = some last ∧
      f.span = first.span.cover last.span := by
  fun_induction Formula.span f generalizing c tokens with
  | case1 =>
    obtain ⟨literal, rfl, rfl⟩ := spelled_of_derives derives
    exact ⟨literal, literal, rfl, rfl, rfl⟩
  | case2 =>
    obtain ⟨word, rfl, -, rfl⟩ := spelled_of_derives derives
    exact ⟨word, word, rfl, rfl, rfl⟩
  | case3 =>
    obtain ⟨opening, own, closing, rfl, -, -, -, rfl⟩ := spelled_of_derives derives
    exact ⟨opening, closing, rfl, by simp [List.getLast?_cons], rfl⟩
  | case4 =>
    obtain ⟨word, opening, own, closing, rfl, -, -, -, -, rfl, rfl⟩ := spelled_of_derives derives
    exact ⟨word, closing, rfl, by simp [List.getLast?_cons], rfl⟩
  | case5 operand signSpan ih =>
    obtain ⟨sign, own, rfl, -, inner, rfl⟩ := spelled_of_derives derives
    obtain ⟨first, last, -, ends, place⟩ := ih inner
    exact ⟨sign, last, rfl, by simp [List.getLast?_cons, ends], by rw [place]; rfl⟩
  | case6 op opSpan left right ihLeft ihRight =>
    obtain ⟨front, sign, back, rfl, -, rfl, left_, right_⟩ := spelled_of_derives derives
    obtain ⟨first, _, begins, -, place⟩ := ihLeft left_
    obtain ⟨_, last, -, ends, place'⟩ := ihRight right_
    exact ⟨first, last, by simp [begins], by simp [List.getLast?_cons, ends],
      by rw [place, place']; rfl⟩

/-! ### The pieces of a formula -/

/-- The tokens of the text take up the region of the piece, and the text of the piece stands there. -/
def Holds (text : String) (block : List Token) (piece : Piece) : Prop :=
  ∃ first last, block.head? = some first ∧ block.getLast? = some last ∧
    piece.span = first.span.cover last.span ∧
    ∀ mark ∈ piece.text?, piece.span.slice text = mark

theorem holds_formula {text : String} {c : Category} {tokens : List Token} {f : Formula α}
    (derives : Derives c tokens f) : Holds text tokens ⟨f.span, none⟩ := by
  obtain ⟨first, last, begins, ends, place⟩ := span_of_derives derives
  exact ⟨first, last, begins, ends, place, by rintro _ ⟨⟩⟩

theorem holds_word {text : String} {token : Token} (mem : token ∈ tokenize text) :
    Holds text [token] ⟨token.span, some token.lexeme⟩ := by
  refine ⟨token, token, rfl, rfl, rfl, ?_⟩
  rintro _ ⟨⟩
  exact slice_of_mem_tokenize mem

theorem holds_mark {text : String} {token : Token} {mark : String} (mem : token ∈ tokenize text)
    (known : token.kind.mark? = some mark) : Holds text [token] ⟨token.span, some mark⟩ :=
  lexeme_of_mark? mem known ▸ holds_word mem

theorem holds_opening {text : String} {opening : Token} {span : Span}
    (mem : opening ∈ tokenize text) (opens : opening.kind = .openParen)
    (begins : span.start = opening.span.start) :
    Holds text [opening] ⟨span.opening, some "("⟩ := by
  have known : opening.kind.mark? = some "(" := by rw [opens]; rfl
  have same : span.opening = opening.span := by
    rw [Span.opening, begins, ← stop_of_mark? mem known]
  exact same ▸ holds_mark mem known

theorem holds_closing {text : String} {closing : Token} {span : Span}
    (mem : closing ∈ tokenize text) (closes : closing.kind = .closeParen)
    (ends : span.stop = closing.span.stop) :
    Holds text [closing] ⟨span.closing, some ")"⟩ := by
  have known : closing.kind.mark? = some ")" := by rw [closes]; rfl
  have same : span.closing = closing.span := by
    rw [Span.closing, ends, stop_of_mark? mem known, Nat.add_sub_cancel, ← stop_of_mark? mem known]
  exact same ▸ holds_mark mem known

/-- The tokens of a formula fall into rows, one after the other, each with a piece of the formula. -/
theorem holds_pieces {text : String} {c : Category} {tokens : List Token} {f : Formula α}
    (derives : Derives c tokens f) (mem : ∀ token ∈ tokens, token ∈ tokenize text) :
    ∃ blocks : List (List Token), blocks.flatten.Sublist tokens ∧
      List.Forall₂ (Holds text) blocks f.pieces := by
  cases f with
  | number value span =>
    exact ⟨[tokens], by simp, .cons (holds_formula derives) .nil⟩
  | symbol name span =>
    obtain ⟨word, rfl, rfl, rfl⟩ := spelled_of_derives derives
    exact ⟨[[word]], by simp, .cons (holds_word (mem word (by simp))) .nil⟩
  | paren inner span =>
    obtain ⟨opening, own, closing, rfl, opens, closes, inside, rfl⟩ := spelled_of_derives derives
    exact ⟨[[opening], own, [closing]], by simp,
      .cons (holds_opening (mem opening (by simp)) opens rfl) (.cons (holds_formula inside)
        (.cons (holds_closing (mem closing (by simp)) closes rfl) .nil))⟩
  | call name nameSpan arguments parenSpan =>
    obtain ⟨word, opening, own, closing, rfl, opens, closes, row, rfl, rfl, rfl⟩ :=
      spelled_of_derives derives
    obtain ⟨blocks, within, each⟩ : ∃ blocks : List (List Token), blocks.flatten.Sublist own ∧
        List.Forall₂ (Holds text) blocks (arguments.map fun argument => ⟨argument.span, none⟩) := by
      obtain ⟨rfl, rfl⟩ | row := row
      · exact ⟨[], by simp, .nil⟩
      · obtain ⟨blocks, within, -, each⟩ := exists_blocks row
        exact ⟨blocks, within, List.forall₂_map_right_iff.2 (each.imp fun _ _ => holds_formula)⟩
    refine ⟨[word] :: [opening] :: (blocks ++ [[closing]]), ?_, ?_⟩
    · simpa using within
    · exact .cons (holds_word (mem word (by simp)))
        (.cons (holds_opening (mem opening (by simp)) opens rfl) (List.rel_append each
          (.cons (holds_closing (mem closing (by simp)) closes rfl) .nil)))
  | neg operand signSpan =>
    obtain ⟨sign, own, rfl, minus, inner, rfl⟩ := spelled_of_derives derives
    exact ⟨[[sign], own], by simp, .cons (holds_mark (mem sign (by simp)) (by rw [minus]; rfl))
      (.cons (holds_formula inner) .nil)⟩
  | binary op opSpan left right =>
    obtain ⟨front, sign, back, rfl, known, rfl, first, second⟩ := spelled_of_derives derives
    exact ⟨[front, [sign], back], by simp, .cons (holds_formula first)
      (.cons (holds_mark (mem sign (by simp)) (TokenKind.mark?_of_binaryOp? known))
        (.cons (holds_formula second) .nil))⟩

/-- The region of a piece that has tokens is not empty. -/
theorem Holds.filled {text : String} {block : List Token} {piece : Piece}
    (holds : Holds text block piece)
    (filled : ∀ token ∈ block, token.span.start < token.span.stop)
    (apart : block.Pairwise fun first second => first.span.Precedes second.span) :
    piece.span.start < piece.span.stop := by
  obtain ⟨first, last, begins, ends, place, -⟩ := holds
  obtain ⟨others, rfl⟩ := List.head?_eq_some_iff.1 begins
  rw [place]
  change first.span.start < last.span.stop
  have first_ := filled first List.mem_cons_self
  rcases List.mem_cons.1 (List.mem_of_getLast? ends) with rfl | later
  · exact first_
  · have behind : first.span.stop ≤ last.span.start := List.rel_of_pairwise_cons apart later
    have last_ := filled last (List.mem_of_getLast? ends)
    omega

/-- Pieces stand one after the other as their tokens do. -/
theorem pairwise_of_holds {text : String} {blocks : List (List Token)} {row : List Piece}
    (each : List.Forall₂ (Holds text) blocks row)
    (apart : blocks.Pairwise fun block block' =>
      ∀ token ∈ block, ∀ token' ∈ block', token.span.Precedes token'.span) :
    row.Pairwise fun first second => first.span.Precedes second.span := by
  induction each with
  | nil => exact .nil
  | cons holds others ih =>
    obtain ⟨front, behind⟩ := List.pairwise_cons.1 apart
    refine .cons (fun piece mem => ?_) (ih behind)
    obtain ⟨_, last, -, ends, place, -⟩ := holds
    obtain ⟨block', within, first', _, begins', -, place', -⟩ := exists_block others mem
    rw [place, place']
    exact front block' within last (List.mem_of_getLast? ends) first' (List.mem_of_head? begins')

omit [Numeral α] in
/-- The first piece of a formula begins where the formula does, and the last one ends where it does. -/
theorem ends_of_pieces (f : Formula α) :
    f.pieces.head?.map (·.span.start) = some f.span.start ∧
      f.pieces.getLast?.map (·.span.stop) = some f.span.stop := by
  cases f with
  | call name nameSpan arguments parenSpan =>
    refine ⟨rfl, ?_⟩
    rw [pieces, ← List.cons_append, ← List.cons_append, List.getLast?_append]
    rfl
  | _ => exact ⟨rfl, rfl⟩

omit [Numeral α] in
/-- Pieces that stand one after the other stand between the first and the last. -/
theorem Ordered.of_pairwise {f : Formula α}
    (filled : ∀ piece ∈ f.pieces, piece.span.start < piece.span.stop)
    (apart : f.pieces.Pairwise fun first second => first.span.Precedes second.span) :
    f.Ordered := by
  obtain ⟨begins, ends⟩ := ends_of_pieces f
  refine ⟨filled, apart, fun piece mem => ⟨?_, ?_⟩, begins, ends⟩
  · obtain ⟨first, isFirst, start⟩ := Option.map_eq_some_iff.1 begins
    obtain ⟨others, row⟩ := List.head?_eq_some_iff.1 isFirst
    have first_ := filled first (List.mem_of_head? isFirst)
    rw [row] at mem apart
    rcases List.mem_cons.1 mem with rfl | later
    · exact Nat.le_of_eq start.symm
    · have behind : first.span.stop ≤ piece.span.start := List.rel_of_pairwise_cons apart later
      omega
  · obtain ⟨last, isLast, stop⟩ := Option.map_eq_some_iff.1 ends
    obtain ⟨others, row⟩ := List.getLast?_eq_some_iff.1 isLast
    have last_ := filled last (List.mem_of_getLast? isLast)
    rw [row] at mem apart
    rcases List.mem_append.1 mem with earlier | single
    · have before : piece.span.stop ≤ last.span.start :=
        (List.pairwise_append.1 apart).2.2 piece earlier last (List.mem_singleton_self _)
      omega
    · rw [List.mem_singleton.1 single]
      exact Nat.le_of_eq stop

/-! ### Texts -/

/-- The pieces of a formula stand in order if its tokens do, each with its text. -/
theorem ordered_of_derives {text : String} {c : Category} {tokens : List Token} {f : Formula α}
    (derives : Derives c tokens f) (own : tokens <:+: significant (tokenize text)) :
    f.Ordered ∧ ∀ piece ∈ f.pieces, ∀ mark ∈ piece.text?, piece.span.slice text = mark := by
  have visible : ∀ token ∈ tokens, token ∈ tokenize text :=
    fun token mem => mem_of_mem_significant (own.subset mem)
  obtain ⟨blocks, within, each⟩ := holds_pieces derives visible
  have sublist : blocks.flatten.Sublist (tokenize text) :=
    (within.trans own.sublist).trans List.filter_sublist
  have filled : ∀ token ∈ blocks.flatten, token.span.start < token.span.stop :=
    fun token mem => (bounds_of_mem_tokensFrom (sublist.subset mem)).2
  obtain ⟨each_, apart⟩ := List.pairwise_flatten.1 ((pairwise_tokensFrom 0 text.toList).sublist sublist)
  refine ⟨.of_pairwise (fun piece mem => ?_) (pairwise_of_holds each apart), fun piece mem => ?_⟩
  · obtain ⟨block, mem', holds⟩ := exists_block each mem
    exact holds.filled (fun token inside => filled token (List.mem_flatten_of_mem mem' inside))
      (each_ block mem')
  · obtain ⟨block, -, _, _, -, -, -, marked⟩ := exists_block each mem
    exact marked

/-- The slice under neighbouring tokens that derive a formula is read as that formula. -/
theorem parse_slice {text : String} {tokens : List Token} {f : Formula α}
    (derives : Derives .expr tokens f) (own : tokens <:+: significant (tokenize text)) :
    ∃ alone : Formula α, parse (f.span.slice text) = .ok alone ∧
      alone.shift f.span.start = f := by
  obtain ⟨first, last, begins, ends, place⟩ := span_of_derives derives
  obtain ⟨before, after, cut⟩ := own
  obtain ⟨left, piece, right, pieces, start, stop, tokens_eq⟩ := exists_piece cut.symm begins ends
  have slice : f.span.slice text = String.ofList piece := by
    rw [place, Span.cover, start, stop]
    exact slice_of_pieces pieces
  -- the two rows of tokens differ in nothing but that one stands further to the right
  have alike : List.Forall₂ (Token.Alike fun span span' => span' = span.shift (utf8Length left))
      (significant (tokenize (String.ofList piece))) tokens := by
    rw [tokens_eq, tokenize, String.toList_ofList, List.forall₂_map_right_iff, List.forall₂_same]
    exact fun token _ => ⟨rfl, rfl, rfl⟩
  have coherent : Span.Coherent fun span span' => span' = span.shift (utf8Length left) := by
    rintro _ _ _ _ rfl rfl
    rfl
  have both := ofTokens_alike (α := α) (utf8Length (String.ofList piece).toList) 0 coherent alike
  rw [(ofTokens_eq_ok_iff_derives 0 tokens f).2 derives, ← parse_eq_ofTokens] at both
  rw [slice, place, Span.cover, start]
  generalize (parse (String.ofList piece) : Except _ (Formula α)) = read at both
  cases both with
  | @done alone _ same => exact ⟨alone, rfl, same.eq_shift.symm⟩

/-- The places of a formula are exact, and they are local. Each part of a formula that was read from a
    text, at any depth, is derived from neighbouring tokens, and its region reaches from the first of them
    to the last. Its operands, names and signs stand in the region from its beginning to its end, one
    after the other, the names and signs with their texts. And the slice of the text under the region is
    read as the part, at places that count from the beginning of the slice. -/
theorem places_of_parse {text : String} {f part : Formula α} (read : parse text = .ok f)
    (within : part.IsPartOf f) :
    (∃ before own after first last,
        significant (tokenize text) = before ++ own ++ after ∧ Derives .expr own part ∧
        own.head? = some first ∧ own.getLast? = some last ∧
        part.span = first.span.cover last.span) ∧
      part.Ordered ∧
      (∀ piece ∈ part.pieces, ∀ mark ∈ piece.text?, piece.span.slice text = mark) ∧
      ∃ alone : Formula α, parse (part.span.slice text) = .ok alone ∧
        alone.shift part.span.start = part := by
  obtain ⟨own, infix_, derives⟩ :=
    exists_tokens_of_part within ((parse_eq_ok_iff_derives text f).1 read)
  obtain ⟨first, last, begins, ends, place⟩ := span_of_derives derives
  obtain ⟨ordered, marked⟩ := ordered_of_derives derives infix_
  have alone := parse_slice derives infix_
  obtain ⟨before, after, cut⟩ := infix_
  exact ⟨⟨before, own, after, first, last, cut.symm, derives, begins, ends, place⟩, ordered, marked,
    alone⟩

/-- The difference in the parentheses of `a*( b-c )` is what `b-c` is, four bytes further on. -/
theorem places_of_parse_difference :
    ∃ f part : Formula Double, parse "a*( b-c )" = .ok f ∧ part.IsPartOf f ∧
      part.span = ⟨4, 7⟩ ∧ part.Ordered ∧
      ∃ alone : Formula Double, parse (part.span.slice "a*( b-c )") = .ok alone ∧
        alone.shift part.span.start = part := by
  have tokens : significant (tokenize "a*( b-c )") =
      [⟨.name, ⟨0, 1⟩, "a"⟩, ⟨.star, ⟨1, 2⟩, "*"⟩, ⟨.openParen, ⟨2, 3⟩, "("⟩,
        ⟨.name, ⟨4, 5⟩, "b"⟩, ⟨.minus, ⟨5, 6⟩, "-"⟩, ⟨.name, ⟨6, 7⟩, "c"⟩,
        ⟨.closeParen, ⟨8, 9⟩, ")"⟩] := by
    decide +kernel
  have opens : (⟨.openParen, ⟨2, 3⟩, "("⟩ : Token).kind = .openParen := rfl
  have closes : (⟨.closeParen, ⟨8, 9⟩, ")"⟩ : Token).kind = .closeParen := rfl
  have a : Derives .primary [⟨.name, ⟨0, 1⟩, "a"⟩] (.symbol "a" ⟨0, 1⟩ : Formula Double) :=
    .symbol rfl
  have b : Derives .primary [⟨.name, ⟨4, 5⟩, "b"⟩] (.symbol "b" ⟨4, 5⟩ : Formula Double) :=
    .symbol rfl
  have c : Derives .primary [⟨.name, ⟨6, 7⟩, "c"⟩] (.symbol "c" ⟨6, 7⟩ : Formula Double) :=
    .symbol rfl
  have difference := Derives.sum ⟨⟨.minus, ⟨5, 6⟩, "-"⟩, .sub, rfl, rfl⟩ (b.widen (by decide))
    (c.widen (by decide))
  have whole := Derives.product ⟨⟨.star, ⟨1, 2⟩, "*"⟩, .mul, rfl, rfl⟩ (a.widen (by decide))
    ((Derives.paren opens closes difference).widen (by decide))
  have read : parse "a*( b-c )" = .ok (.binary .mul ⟨1, 2⟩ (.symbol "a" ⟨0, 1⟩)
      (.paren (.binary .sub ⟨5, 6⟩ (.symbol "b" ⟨4, 5⟩) (.symbol "c" ⟨6, 7⟩)) ⟨2, 9⟩) :
      Formula Double) := by
    rw [parse_eq_ok_iff_derives, tokens]
    exact whole.widen (by decide)
  obtain ⟨-, ordered, -, alone⟩ := places_of_parse read (.right (.paren (.refl _)))
  exact ⟨_, _, read, .right (.paren (.refl _)), rfl, ordered, alone⟩

end Formula

end SymbolicCalculus
