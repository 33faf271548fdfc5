/-
Module: SymbolicCalculus.Proofs.Formula.Grammar
Layer: Proofs
Purpose: The grammar of formulas. A derivation is a tree of productions with the tokens at its leaves; it
  yields a row of tokens, and it is read as a formula if all numbers in it are in range. The grammar is
  unambiguous: a row of tokens together with the formula that it is read as determines the derivation.
Main exports: Category, Derivation, Arguments, Derivation.yield, Derivation.tree?, Derives,
  Derivation.exists_tree?_iff, Derivation.eq_of_tree?
-/
import SymbolicCalculus.Formula
import SymbolicCalculus.Scalar
import SymbolicCalculus.Token

namespace SymbolicCalculus

/-- The token is a numeral. -/
def Token.IsNumber (token : Token) : Prop := token.kind = .int ∨ token.kind = .float

/-- A numeral stands for a number of the given type. -/
def Token.InRange (α : Type) [Numeral α] (token : Token) : Prop :=
  ∃ value : α, Numeral.ofLiteral? token.lexeme = some value

namespace Grammar

/-- The categories of formulas, from the loosest to the tightest. -/
inductive Category where
  | expr | term | unary | power | primary
deriving DecidableEq, Repr, Inhabited

/-- A token of a given kind. -/
@[ext] structure Word (kind : TokenKind) where
  token : Token
  is_kind : token.kind = kind

/-- A token that is an operator of a given precedence. -/
structure Sign (level : Precedence) where
  token : Token
  op : BinaryOp
  known : token.kind.binaryOp? = some op
  binds : op.precedence = level

/-- The token determines the operator. -/
theorem Sign.ext {level : Precedence} {first second : Sign level}
    (same : first.token = second.token) : first = second := by
  obtain ⟨token, op, known, binds⟩ := first
  obtain ⟨token', op', known', binds'⟩ := second
  cases same
  cases known.symm.trans known'
  rfl

/-! ### Derivations -/

mutual

/-- A derivation of a category: the production that was used first, and derivations of its parts. -/
inductive Derivation : Category → Type where
  | sum (left : Derivation .expr) (sign : Sign .term) (right : Derivation .term) : Derivation .expr
  | ofTerm (term : Derivation .term) : Derivation .expr
  | product (left : Derivation .term) (sign : Sign .factor) (right : Derivation .unary) :
      Derivation .term
  | ofUnary (unary : Derivation .unary) : Derivation .term
  | minus (sign : Word .minus) (operand : Derivation .unary) : Derivation .unary
  | ofPower (power : Derivation .power) : Derivation .unary
  | raised (base : Derivation .primary) (sign : Sign .exp) (exponent : Derivation .unary) :
      Derivation .power
  | ofPrimary (primary : Derivation .primary) : Derivation .power
  | number (literal : Token) (numeric : literal.IsNumber) : Derivation .primary
  | name (word : Word .name) : Derivation .primary
  | group (opening : Word .openParen) (inner : Derivation .expr) (closing : Word .closeParen) :
      Derivation .primary
  | emptyCall (word : Word .name) (opening : Word .openParen) (closing : Word .closeParen) :
      Derivation .primary
  | call (word : Word .name) (opening : Word .openParen) (given : Arguments)
      (closing : Word .closeParen) : Derivation .primary

/-- Derivations of the arguments of a call, with commas between them. -/
inductive Arguments : Type where
  | last (argument : Derivation .expr) : Arguments
  | more (argument : Derivation .expr) (comma : Word .comma) (others : Arguments) : Arguments

end

mutual

/-- The tokens at the leaves, from left to right. -/
def Derivation.yield : {c : Category} → Derivation c → List Token
  | _, .sum left sign right => left.yield ++ sign.token :: right.yield
  | _, .ofTerm term => term.yield
  | _, .product left sign right => left.yield ++ sign.token :: right.yield
  | _, .ofUnary unary => unary.yield
  | _, .minus sign operand => sign.token :: operand.yield
  | _, .ofPower power => power.yield
  | _, .raised base sign exponent => base.yield ++ sign.token :: exponent.yield
  | _, .ofPrimary primary => primary.yield
  | _, .number literal _ => [literal]
  | _, .name word => [word.token]
  | _, .group opening inner closing => opening.token :: (inner.yield ++ [closing.token])
  | _, .emptyCall word opening closing => [word.token, opening.token, closing.token]
  | _, .call word opening given closing =>
      word.token :: opening.token :: (given.yield ++ [closing.token])

/-- The tokens at the leaves of the arguments, and the commas between them. -/
def Arguments.yield : Arguments → List Token
  | .last argument => argument.yield
  | .more argument comma others => argument.yield ++ comma.token :: others.yield

end

section Trees

variable {α β : Type} [Numeral α]

mutual

/-- The formula that a derivation is read as; none if a number in it is out of range. -/
def Derivation.tree? : {c : Category} → Derivation c → Option (Formula α)
  | _, .sum left sign right =>
      left.tree?.bind fun l => right.tree?.map fun r => .binary sign.op sign.token.span l r
  | _, .ofTerm term => term.tree?
  | _, .product left sign right =>
      left.tree?.bind fun l => right.tree?.map fun r => .binary sign.op sign.token.span l r
  | _, .ofUnary unary => unary.tree?
  | _, .minus sign operand => operand.tree?.map fun f => .neg f sign.token.span
  | _, .ofPower power => power.tree?
  | _, .raised base sign exponent =>
      base.tree?.bind fun l => exponent.tree?.map fun r => .binary sign.op sign.token.span l r
  | _, .ofPrimary primary => primary.tree?
  | _, .number literal _ =>
      (Numeral.ofLiteral? literal.lexeme).map fun value => .number value literal.span
  | _, .name word => some (.symbol word.token.lexeme word.token.span)
  | _, .group opening inner closing =>
      inner.tree?.map fun f => .paren f (opening.token.span.cover closing.token.span)
  | _, .emptyCall word opening closing =>
      some (.call word.token.lexeme word.token.span []
        (opening.token.span.cover closing.token.span))
  | _, .call word opening given closing =>
      given.trees?.map fun fs => .call word.token.lexeme word.token.span fs
        (opening.token.span.cover closing.token.span)

/-- The formulas that the arguments are read as. -/
def Arguments.trees? : Arguments → Option (List (Formula α))
  | .last argument => argument.tree?.map fun f => [f]
  | .more argument _ others => argument.tree?.bind fun f => others.trees?.map fun fs => f :: fs

end

/-- The tokens of a category that are read as a formula. -/
def Derives (c : Category) (tokens : List Token) (formula : Formula α) : Prop :=
  ∃ derivation : Derivation c, derivation.yield = tokens ∧ derivation.tree? = some formula

/-! ### Numbers in range

A derivation is read as a formula exactly if all numbers among its tokens are in range. -/

/-- All numerals among the tokens stand for numbers. -/
def AllInRange (α : Type) [Numeral α] (tokens : List Token) : Prop :=
  ∀ token ∈ tokens, token.IsNumber → token.InRange α

@[simp] theorem allInRange_append (first second : List Token) :
    AllInRange α (first ++ second) ↔ AllInRange α first ∧ AllInRange α second := by
  simp only [AllInRange, List.mem_append]
  constructor
  · intro all
    exact ⟨fun token mem => all token (.inl mem), fun token mem => all token (.inr mem)⟩
  · rintro ⟨left, right⟩ token (mem | mem)
    · exact left token mem
    · exact right token mem

@[simp] theorem allInRange_nil : AllInRange α [] := by
  intro token mem
  cases mem

theorem allInRange_cons {token : Token} {tokens : List Token} (other : ¬ token.IsNumber) :
    AllInRange α (token :: tokens) ↔ AllInRange α tokens := by
  simp [AllInRange, other]

theorem exists_map_eq_some {β γ : Type} {first : Option β} {make : β → γ} :
    (∃ made, first.map make = some made) ↔ ∃ value, first = some value := by
  cases first <;> simp

theorem exists_bind_map_eq_some {β γ δ : Type} {first : Option β} {second : Option γ}
    {make : β → γ → δ} :
    (∃ made, (first.bind fun b => second.map (make b)) = some made) ↔
      (∃ value, first = some value) ∧ ∃ value, second = some value := by
  cases first <;> cases second <;> simp

theorem Word.not_isNumber {kind : TokenKind} (word : Word kind) (int : kind ≠ .int)
    (float : kind ≠ .float) : ¬ word.token.IsNumber := by
  rw [Token.IsNumber, word.is_kind]
  exact not_or.2 ⟨int, float⟩

theorem Sign.not_isNumber {level : Precedence} (sign : Sign level) : ¬ sign.token.IsNumber := by
  rintro (int | float)
  · have known := sign.known
    rw [int] at known
    cases known
  · have known := sign.known
    rw [float] at known
    cases known

mutual

theorem Derivation.exists_tree?_iff :
    ∀ {c : Category} (d : Derivation c),
      (∃ f : Formula α, d.tree? = some f) ↔ AllInRange α d.yield
  | _, .sum left sign right => by
      have l := left.exists_tree?_iff
      have r := right.exists_tree?_iff
      rw [Derivation.yield, allInRange_append, allInRange_cons sign.not_isNumber, ← l, ← r]
      exact exists_bind_map_eq_some
  | _, .ofTerm term => term.exists_tree?_iff
  | _, .product left sign right => by
      have l := left.exists_tree?_iff
      have r := right.exists_tree?_iff
      rw [Derivation.yield, allInRange_append, allInRange_cons sign.not_isNumber, ← l, ← r]
      exact exists_bind_map_eq_some
  | _, .ofUnary unary => unary.exists_tree?_iff
  | _, .minus sign operand => by
      have inner := operand.exists_tree?_iff
      have other := sign.not_isNumber (by decide) (by decide)
      rw [Derivation.yield, allInRange_cons other, ← inner]
      exact exists_map_eq_some
  | _, .ofPower power => power.exists_tree?_iff
  | _, .raised base sign exponent => by
      have l := base.exists_tree?_iff
      have r := exponent.exists_tree?_iff
      rw [Derivation.yield, allInRange_append, allInRange_cons sign.not_isNumber, ← l, ← r]
      exact exists_bind_map_eq_some
  | _, .ofPrimary primary => primary.exists_tree?_iff
  | _, .number literal numeric => by
      simp only [Derivation.yield, Derivation.tree?, AllInRange, List.forall_mem_singleton,
        Option.map_eq_some_iff]
      constructor
      · rintro ⟨f, value, known, -⟩ -
        exact ⟨value, known⟩
      · intro inRange
        obtain ⟨value, known⟩ := inRange numeric
        exact ⟨_, value, known, rfl⟩
  | _, .name word => by
      have other := word.not_isNumber (by decide) (by decide)
      simp [Derivation.yield, Derivation.tree?, allInRange_cons other]
  | _, .group opening inner closing => by
      have inside := inner.exists_tree?_iff
      have opens := opening.not_isNumber (by decide) (by decide)
      have closes := closing.not_isNumber (by decide) (by decide)
      simp only [Derivation.yield, allInRange_cons opens, allInRange_append,
        allInRange_cons closes, allInRange_nil, and_true, ← inside]
      exact exists_map_eq_some
  | _, .emptyCall word opening closing => by
      have other := word.not_isNumber (by decide) (by decide)
      have opens := opening.not_isNumber (by decide) (by decide)
      have closes := closing.not_isNumber (by decide) (by decide)
      simp [Derivation.yield, Derivation.tree?, allInRange_cons other, allInRange_cons opens,
        allInRange_cons closes]
  | _, .call word opening given closing => by
      have inside := given.exists_trees?_iff
      have other := word.not_isNumber (by decide) (by decide)
      have opens := opening.not_isNumber (by decide) (by decide)
      have closes := closing.not_isNumber (by decide) (by decide)
      simp only [Derivation.yield, allInRange_cons other, allInRange_cons opens,
        allInRange_append, allInRange_cons closes, allInRange_nil, and_true, ← inside]
      exact exists_map_eq_some

theorem Arguments.exists_trees?_iff :
    ∀ given : Arguments,
      (∃ fs : List (Formula α), given.trees? = some fs) ↔ AllInRange α given.yield
  | .last argument => by
      have inner := argument.exists_tree?_iff
      rw [Arguments.yield, ← inner]
      exact exists_map_eq_some
  | .more argument comma others => by
      have first := argument.exists_tree?_iff
      have rest := others.exists_trees?_iff
      have other := comma.not_isNumber (by decide) (by decide)
      rw [Arguments.yield, allInRange_append, allInRange_cons other, ← first, ← rest]
      exact exists_bind_map_eq_some

end

/-! ### The production that a formula comes from

The outermost part of a formula tells which category it was derived from first, and the number of tokens
that it was read from tells where its parts begin. Both together leave one derivation. -/

/-- How loose a category is. -/
def Category.looseness : Category → Nat
  | .primary => 0
  | .power => 1
  | .unary => 2
  | .term => 3
  | .expr => 4

/-- The category of the formulas whose outermost operator has the precedence. -/
def Category.madeBy : Precedence → Category
  | .any | .term => .expr
  | .factor => .term
  | .neg => .unary
  | .exp => .power

/-- The tightest category that a formula belongs to. -/
def categoryOf : Formula β → Category
  | .binary op _ _ _ => .madeBy op.precedence
  | .neg _ _ => .madeBy .neg
  | .number _ _ | .symbol _ _ | .paren _ _ | .call _ _ _ _ => .primary

theorem categoryOf_binary {level : Precedence} (sign : Sign level) (span : Span) (l r : Formula β) :
    categoryOf (.binary sign.op span l r) = .madeBy level :=
  congrArg Category.madeBy sign.binds

/-- A derivation is read as a formula of its own category or of a tighter one. -/
theorem Derivation.looseness_categoryOf :
    ∀ {c : Category} {d : Derivation c} {f : Formula α}, d.tree? = some f →
      (categoryOf f).looseness ≤ c.looseness
  | _, .sum left sign right, f, read => by
      obtain ⟨l, -, tail⟩ := Option.bind_eq_some_iff.1 read
      obtain ⟨r, -, rfl⟩ := Option.map_eq_some_iff.1 tail
      rw [categoryOf_binary]
      exact Nat.le_refl _
  | _, .ofTerm term, f, read => Nat.le_succ_of_le (term.looseness_categoryOf read)
  | _, .product left sign right, f, read => by
      obtain ⟨l, -, tail⟩ := Option.bind_eq_some_iff.1 read
      obtain ⟨r, -, rfl⟩ := Option.map_eq_some_iff.1 tail
      rw [categoryOf_binary]
      exact Nat.le_refl _
  | _, .ofUnary unary, f, read => Nat.le_succ_of_le (unary.looseness_categoryOf read)
  | _, .minus sign operand, f, read => by
      obtain ⟨inner, -, rfl⟩ := Option.map_eq_some_iff.1 read
      exact Nat.le_refl _
  | _, .ofPower power, f, read => Nat.le_succ_of_le (power.looseness_categoryOf read)
  | _, .raised base sign exponent, f, read => by
      obtain ⟨l, -, tail⟩ := Option.bind_eq_some_iff.1 read
      obtain ⟨r, -, rfl⟩ := Option.map_eq_some_iff.1 tail
      rw [categoryOf_binary]
      exact Nat.le_refl _
  | _, .ofPrimary primary, f, read => Nat.le_succ_of_le (primary.looseness_categoryOf read)
  | _, .number literal _, f, read => by
      obtain ⟨value, -, rfl⟩ := Option.map_eq_some_iff.1 read
      exact Nat.le_refl _
  | _, .name word, f, read => by
      cases read
      exact Nat.le_refl _
  | _, .group opening inner closing, f, read => by
      obtain ⟨inside, -, rfl⟩ := Option.map_eq_some_iff.1 read
      exact Nat.le_refl _
  | _, .emptyCall word opening closing, f, read => by
      cases read
      exact Nat.le_refl _
  | _, .call word opening given closing, f, read => by
      obtain ⟨fs, -, rfl⟩ := Option.map_eq_some_iff.1 read
      exact Nat.le_refl _

mutual

/-- The number of tokens that a formula is read from. -/
def tokenCount : Formula β → Nat
  | .number _ _ | .symbol _ _ => 1
  | .paren inner _ => tokenCount inner + 2
  | .call _ _ arguments _ => tokenCountOfAll arguments + 3
  | .neg operand _ => tokenCount operand + 1
  | .binary _ _ left right => tokenCount left + tokenCount right + 1

/-- The number of tokens that a row of formulas is read from, with the commas between them. -/
def tokenCountOfAll : List (Formula β) → Nat
  | [] => 0
  | [last] => tokenCount last
  | first :: others => tokenCount first + tokenCountOfAll others + 1

end

theorem Arguments.ne_nil_of_trees? {given : Arguments} {fs : List (Formula α)}
    (read : given.trees? = some fs) : fs ≠ [] := by
  cases given with
  | last argument =>
    obtain ⟨f, -, rfl⟩ := Option.map_eq_some_iff.1 read
    exact List.cons_ne_nil _ _
  | more argument comma others =>
    obtain ⟨f, -, tail⟩ := Option.bind_eq_some_iff.1 read
    obtain ⟨rest, -, rfl⟩ := Option.map_eq_some_iff.1 tail
    exact List.cons_ne_nil _ _

mutual

theorem Derivation.length_yield :
    ∀ {c : Category} {d : Derivation c} {f : Formula α}, d.tree? = some f →
      d.yield.length = tokenCount f
  | _, .sum left sign right, f, read => by
      obtain ⟨l, readLeft, tail⟩ := Option.bind_eq_some_iff.1 read
      obtain ⟨r, readRight, rfl⟩ := Option.map_eq_some_iff.1 tail
      have l := left.length_yield readLeft
      have r := right.length_yield readRight
      simp only [Derivation.yield, List.length_append, List.length_cons, tokenCount]
      omega
  | _, .ofTerm term, f, read => term.length_yield read
  | _, .product left sign right, f, read => by
      obtain ⟨l, readLeft, tail⟩ := Option.bind_eq_some_iff.1 read
      obtain ⟨r, readRight, rfl⟩ := Option.map_eq_some_iff.1 tail
      have l := left.length_yield readLeft
      have r := right.length_yield readRight
      simp only [Derivation.yield, List.length_append, List.length_cons, tokenCount]
      omega
  | _, .ofUnary unary, f, read => unary.length_yield read
  | _, .minus sign operand, f, read => by
      obtain ⟨inner, readInner, rfl⟩ := Option.map_eq_some_iff.1 read
      simp only [Derivation.yield, List.length_cons, tokenCount, operand.length_yield readInner]
  | _, .ofPower power, f, read => power.length_yield read
  | _, .raised base sign exponent, f, read => by
      obtain ⟨l, readLeft, tail⟩ := Option.bind_eq_some_iff.1 read
      obtain ⟨r, readRight, rfl⟩ := Option.map_eq_some_iff.1 tail
      have l := base.length_yield readLeft
      have r := exponent.length_yield readRight
      simp only [Derivation.yield, List.length_append, List.length_cons, tokenCount]
      omega
  | _, .ofPrimary primary, f, read => primary.length_yield read
  | _, .number literal _, f, read => by
      obtain ⟨value, -, rfl⟩ := Option.map_eq_some_iff.1 read
      rfl
  | _, .name word, f, read => by
      cases read
      rfl
  | _, .group opening inner closing, f, read => by
      obtain ⟨inside, readInside, rfl⟩ := Option.map_eq_some_iff.1 read
      simp [Derivation.yield, tokenCount, inner.length_yield readInside]
  | _, .emptyCall word opening closing, f, read => by
      cases read
      rfl
  | _, .call word opening given closing, f, read => by
      obtain ⟨fs, readAll, rfl⟩ := Option.map_eq_some_iff.1 read
      simp [Derivation.yield, tokenCount, given.length_yield readAll]

theorem Arguments.length_yield :
    ∀ {given : Arguments} {fs : List (Formula α)}, given.trees? = some fs →
      given.yield.length = tokenCountOfAll fs
  | .last argument, fs, read => by
      obtain ⟨f, readFirst, rfl⟩ := Option.map_eq_some_iff.1 read
      exact argument.length_yield readFirst
  | .more argument comma others, fs, read => by
      obtain ⟨f, readFirst, tail⟩ := Option.bind_eq_some_iff.1 read
      obtain ⟨rest, readRest, rfl⟩ := Option.map_eq_some_iff.1 tail
      have first := argument.length_yield readFirst
      have others_ := others.length_yield readRest
      obtain ⟨next, more, rfl⟩ := List.exists_cons_of_ne_nil (others.ne_nil_of_trees? readRest)
      simp only [Arguments.yield, List.length_append, List.length_cons, tokenCountOfAll]
      omega

end

/-- Two rows with the same formulas to the left of a sign split at the same place. -/
theorem yield_split {c c' : Category} {left : Derivation c} {left' : Derivation c'} {f : Formula α}
    {sign sign' : Token} {right right' : List Token} (read : left.tree? = some f)
    (read' : left'.tree? = some f)
    (same : left.yield ++ sign :: right = left'.yield ++ sign' :: right') :
    left.yield = left'.yield ∧ sign = sign' ∧ right = right' := by
  have lengths : left.yield.length = left'.yield.length :=
    (left.length_yield read).trans (left'.length_yield read').symm
  obtain ⟨front, back⟩ := List.append_inj same lengths
  obtain ⟨signs, rest⟩ := List.cons.inj back
  exact ⟨front, signs, rest⟩

/-! ### Unambiguity -/

section Operands

variable {level : Precedence} {sign : Sign level} {span : Span} {f : Formula β}
  {left right left' right' : Option (Formula β)}

/-- A formula that is read from two operands and the operator between them. -/
theorem categoryOf_of_operands
    (read : (left.bind fun l => right.map fun r => .binary sign.op span l r) = some f) :
    categoryOf f = .madeBy level := by
  obtain ⟨l, -, tail⟩ := Option.bind_eq_some_iff.1 read
  obtain ⟨r, -, rfl⟩ := Option.map_eq_some_iff.1 tail
  exact categoryOf_binary sign span l r

/-- Two readings of one formula from operands read the same operands. -/
theorem operands_eq {op op' : BinaryOp} {span' : Span}
    (read : (left.bind fun l => right.map fun r => .binary op span l r) = some f)
    (read' : (left'.bind fun l => right'.map fun r => .binary op' span' l r) = some f) :
    ∃ l r, left = some l ∧ left' = some l ∧ right = some r ∧ right' = some r := by
  obtain ⟨l, readLeft, tail⟩ := Option.bind_eq_some_iff.1 read
  obtain ⟨r, readRight, rfl⟩ := Option.map_eq_some_iff.1 tail
  obtain ⟨l', readLeft', tail'⟩ := Option.bind_eq_some_iff.1 read'
  obtain ⟨r', readRight', trees⟩ := Option.map_eq_some_iff.1 tail'
  obtain ⟨-, -, rfl, rfl⟩ := Formula.binary.inj trees
  exact ⟨l', r', readLeft, readLeft', readRight, readRight'⟩

end Operands

/-- A formula made by an operator of the precedence belongs to no tighter category. -/
theorem Derivation.not_tighter {level : Precedence} {c : Category} {f : Formula α}
    (made : categoryOf f = .madeBy level) (tighter : c.looseness < (Category.madeBy level).looseness)
    (d : Derivation c) : d.tree? ≠ some f := by
  intro read
  have bound := looseness_categoryOf read
  rw [made] at bound
  exact Nat.not_lt_of_le bound tighter

mutual

/-- The tokens and the formula that they are read as determine the derivation. -/
theorem Derivation.eq_of_tree? :
    ∀ {c : Category} (d d' : Derivation c) {f : Formula α}, d.tree? = some f → d'.tree? = some f →
      d.yield = d'.yield → d = d'
  | _, .sum left sign right, .sum left' sign' right', f, read, read', same => by
      obtain ⟨l, r, readLeft, readLeft', readRight, readRight'⟩ := operands_eq read read'
      obtain ⟨front, signs, back⟩ := yield_split readLeft readLeft' same
      rw [left.eq_of_tree? left' readLeft readLeft' front, Sign.ext signs,
        right.eq_of_tree? right' readRight readRight' back]
  | _, .sum left sign right, .ofTerm term, f, read, read', same =>
      absurd read' (term.not_tighter (categoryOf_of_operands read) (by decide))
  | _, .ofTerm term, .sum left sign right, f, read, read', same =>
      absurd read (term.not_tighter (categoryOf_of_operands read') (by decide))
  | _, .ofTerm term, .ofTerm term', f, read, read', same =>
      congrArg Derivation.ofTerm (term.eq_of_tree? term' read read' same)
  | _, .product left sign right, .product left' sign' right', f, read, read', same => by
      obtain ⟨l, r, readLeft, readLeft', readRight, readRight'⟩ := operands_eq read read'
      obtain ⟨front, signs, back⟩ := yield_split readLeft readLeft' same
      rw [left.eq_of_tree? left' readLeft readLeft' front, Sign.ext signs,
        right.eq_of_tree? right' readRight readRight' back]
  | _, .product left sign right, .ofUnary unary, f, read, read', same =>
      absurd read' (unary.not_tighter (categoryOf_of_operands read) (by decide))
  | _, .ofUnary unary, .product left sign right, f, read, read', same =>
      absurd read (unary.not_tighter (categoryOf_of_operands read') (by decide))
  | _, .ofUnary unary, .ofUnary unary', f, read, read', same =>
      congrArg Derivation.ofUnary (unary.eq_of_tree? unary' read read' same)
  | _, .minus sign operand, .minus sign' operand', f, read, read', same => by
      obtain ⟨inner, readInner, rfl⟩ := Option.map_eq_some_iff.1 read
      obtain ⟨inner', readInner', trees⟩ := Option.map_eq_some_iff.1 read'
      obtain ⟨rfl, -⟩ := Formula.neg.inj trees
      obtain ⟨signs, rest⟩ := List.cons.inj same
      rw [Word.ext signs, operand.eq_of_tree? operand' readInner readInner' rest]
  | _, .minus sign operand, .ofPower power, f, read, read', same => by
      obtain ⟨inner, -, rfl⟩ := Option.map_eq_some_iff.1 read
      exact absurd read' (power.not_tighter (show categoryOf _ = .madeBy .neg from rfl) (by decide))
  | _, .ofPower power, .minus sign operand, f, read, read', same => by
      obtain ⟨inner, -, rfl⟩ := Option.map_eq_some_iff.1 read'
      exact absurd read (power.not_tighter (show categoryOf _ = .madeBy .neg from rfl) (by decide))
  | _, .ofPower power, .ofPower power', f, read, read', same =>
      congrArg Derivation.ofPower (power.eq_of_tree? power' read read' same)
  | _, .raised base sign exponent, .raised base' sign' exponent', f, read, read', same => by
      obtain ⟨l, r, readLeft, readLeft', readRight, readRight'⟩ := operands_eq read read'
      obtain ⟨front, signs, back⟩ := yield_split readLeft readLeft' same
      rw [base.eq_of_tree? base' readLeft readLeft' front, Sign.ext signs,
        exponent.eq_of_tree? exponent' readRight readRight' back]
  | _, .raised base sign exponent, .ofPrimary primary, f, read, read', same =>
      absurd read' (primary.not_tighter (categoryOf_of_operands read) (by decide))
  | _, .ofPrimary primary, .raised base sign exponent, f, read, read', same =>
      absurd read (primary.not_tighter (categoryOf_of_operands read') (by decide))
  | _, .ofPrimary primary, .ofPrimary primary', f, read, read', same =>
      congrArg Derivation.ofPrimary (primary.eq_of_tree? primary' read read' same)
  | _, .number literal numeric, d', f, read, read', same => by
      obtain ⟨value, -, rfl⟩ := Option.map_eq_some_iff.1 read
      cases d' with
      | number literal' numeric' => cases same; rfl
      | name | emptyCall => cases read'
      | group | call => simp [Derivation.tree?] at read'
  | _, .name word, d', f, read, read', same => by
      cases read
      cases d' with
      | name word' => rw [Word.ext (List.cons.inj same).1]
      | emptyCall => cases read'
      | number | group | call => simp [Derivation.tree?] at read'
  | _, .group opening inner closing, d', f, read, read', same => by
      obtain ⟨inside, readInner, rfl⟩ := Option.map_eq_some_iff.1 read
      cases d' with
      | group opening' inner' closing' =>
        obtain ⟨inside', readInner', trees⟩ := Option.map_eq_some_iff.1 read'
        obtain ⟨rfl, -⟩ := Formula.paren.inj trees
        obtain ⟨opens, rest⟩ := List.cons.inj same
        obtain ⟨front, closes, -⟩ := yield_split readInner readInner' rest
        rw [Word.ext opens, inner.eq_of_tree? inner' readInner readInner' front, Word.ext closes]
      | name | emptyCall => cases read'
      | number | call => simp [Derivation.tree?] at read'
  | _, .emptyCall word opening closing, d', f, read, read', same => by
      cases read
      cases d' with
      | emptyCall word' opening' closing' =>
        obtain ⟨words, rest⟩ := List.cons.inj same
        obtain ⟨opens, rest⟩ := List.cons.inj rest
        rw [Word.ext words, Word.ext opens, Word.ext (List.cons.inj rest).1]
      | call word' opening' given' closing' =>
        obtain ⟨fs, readAll, trees⟩ := Option.map_eq_some_iff.1 read'
        obtain ⟨-, -, rfl, -⟩ := Formula.call.inj trees
        exact absurd rfl (given'.ne_nil_of_trees? readAll)
      | name => cases read'
      | number | group => simp [Derivation.tree?] at read'
  | _, .call word opening given closing, d', f, read, read', same => by
      obtain ⟨fs, readAll, rfl⟩ := Option.map_eq_some_iff.1 read
      cases d' with
      | call word' opening' given' closing' =>
        obtain ⟨fs', readAll', trees⟩ := Option.map_eq_some_iff.1 read'
        obtain ⟨-, -, rfl, -⟩ := Formula.call.inj trees
        obtain ⟨words, rest⟩ := List.cons.inj same
        obtain ⟨opens, rest⟩ := List.cons.inj rest
        have lengths : given.yield.length = given'.yield.length :=
          (given.length_yield readAll).trans (given'.length_yield readAll').symm
        obtain ⟨front, closes⟩ := List.append_inj rest lengths
        rw [Word.ext words, Word.ext opens, given.eq_of_trees? given' readAll readAll' front,
          Word.ext (List.cons.inj closes).1]
      | emptyCall word' opening' closing' =>
        obtain ⟨-, -, none_, -⟩ := Formula.call.inj (Option.some.inj read')
        exact absurd none_.symm (given.ne_nil_of_trees? readAll)
      | name => cases read'
      | number | group => simp [Derivation.tree?] at read'

theorem Arguments.eq_of_trees? :
    ∀ (given given' : Arguments) {fs : List (Formula α)}, given.trees? = some fs →
      given'.trees? = some fs → given.yield = given'.yield → given = given'
  | .last argument, .last argument', fs, read, read', same => by
      obtain ⟨f, readFirst, rfl⟩ := Option.map_eq_some_iff.1 read
      obtain ⟨f', readFirst', trees⟩ := Option.map_eq_some_iff.1 read'
      obtain ⟨rfl, -⟩ := List.cons.inj trees
      exact congrArg Arguments.last (argument.eq_of_tree? argument' readFirst readFirst' same)
  | .more argument comma others, .more argument' comma' others', fs, read, read', same => by
      obtain ⟨f, readFirst, tail⟩ := Option.bind_eq_some_iff.1 read
      obtain ⟨rest, readRest, rfl⟩ := Option.map_eq_some_iff.1 tail
      obtain ⟨f', readFirst', tail'⟩ := Option.bind_eq_some_iff.1 read'
      obtain ⟨rest', readRest', trees⟩ := Option.map_eq_some_iff.1 tail'
      obtain ⟨rfl, rfl⟩ := List.cons.inj trees
      obtain ⟨front, commas, back⟩ := yield_split readFirst readFirst' same
      rw [argument.eq_of_tree? argument' readFirst readFirst' front, Word.ext commas,
        others.eq_of_trees? others' readRest readRest' back]
  | .last argument, .more argument' comma others, fs, read, read', same => by
      obtain ⟨f, -, rfl⟩ := Option.map_eq_some_iff.1 read
      obtain ⟨f', -, tail'⟩ := Option.bind_eq_some_iff.1 read'
      obtain ⟨rest', readRest', trees⟩ := Option.map_eq_some_iff.1 tail'
      exact absurd (List.cons.inj trees).2 (others.ne_nil_of_trees? readRest')
  | .more argument comma others, .last argument', fs, read, read', same => by
      obtain ⟨f, -, tail⟩ := Option.bind_eq_some_iff.1 read
      obtain ⟨rest, readRest, rfl⟩ := Option.map_eq_some_iff.1 tail
      obtain ⟨f', -, trees⟩ := Option.map_eq_some_iff.1 read'
      exact absurd (List.cons.inj trees).2.symm (others.ne_nil_of_trees? readRest)

end

end Trees

end Grammar

end SymbolicCalculus
