/-
Module: SymbolicCalculus.Proofs.Formula.Verdicts
Layer: Proofs
Purpose: What the readers of formulas answer. The answer does not tell where a failed reading would go on,
  and so it does not show that tokens were put back: each reader becomes a few steps, one after another,
  and the first two tokens settle which steps these are.
Main exports: Verdict, Verdict.andThen, Verdict.andThen_eq_error_iff, Reading.verdict, Formula.verdict,
  Formula.front_cases, Formula.verdict_operand_group and the equations of the other readers, Formula.ofTokens,
  Formula.ofTokens_of_ne_nil, Formula.ofTokens_eq_error_iff
-/
import SymbolicCalculus.Proofs.Formula.Parsing

namespace SymbolicCalculus

/-- A value with the tokens left behind it, or the reason why there is none. -/
abbrev Verdict (β : Type) := Except (Located ParseCause) (β × List Token)

/-- A second step reads on where the first one has stopped. -/
def Verdict.andThen {β γ : Type} (first : Verdict β) (next : β → List Token → Verdict γ) :
    Verdict γ :=
  first.bind fun read => next read.1 read.2

/-- Two steps fail if the first one fails, or the second one where the first has stopped. -/
theorem Verdict.andThen_eq_error_iff {β γ : Type} {first : Verdict β} {next : β → List Token → Verdict γ}
    {fault : Located ParseCause} : first.andThen next = .error fault ↔
      first = .error fault ∨ ∃ value rest, first = .ok (value, rest) ∧ next value rest = .error fault := by
  rw [andThen, bind_eq_error_iff]
  simp only [Prod.exists]

/-- What a reading answers, without where a failed one would go on. -/
def Reading.verdict {β : Type} {bound : Nat} (reading : Reading β bound) : Verdict β :=
  reading.outcome.mapError Prod.fst

/-- A reading that succeeds leaves fewer tokens than its bound. -/
theorem Reading.shorter_of_verdict {β : Type} {bound : Nat} {reading : Reading β bound} {value : β}
    {rest : List Token} (read : reading.verdict = .ok (value, rest)) : rest.length < bound := by
  cases reading with
  | done _ _ shorter =>
    cases read
    exact shorter
  | failed => cases read

namespace Formula

open Reading

variable {α : Type} [Numeral α]

/-- The answer of reading an operand and all that follows it and binds at least as tightly as the
    level. -/
def verdict (stop : Nat) (level : Precedence) (tokens : List Token) : Verdict (Formula α) :=
  (reach stop level tokens).mapError Prod.fst

/-- The answer of reading one operand. -/
def operandVerdict (stop : Nat) (tokens : List Token) : Verdict (Formula α) :=
  (operand stop tokens).verdict

/-- The answer of going on behind an operand. -/
def climbVerdict (stop : Nat) (level : Precedence) (left : Formula α) (tokens : List Token) :
    Verdict (Formula α) :=
  (climb stop level left tokens).verdict

/-- The answer of reading the arguments of a call with the closing parenthesis. -/
def argumentsVerdict (stop : Nat) (opening : Span) (tokens : List Token) :
    Verdict (List (Formula α) × Span) :=
  (arguments stop opening tokens).verdict

theorem verdict_eq_ok_iff {stop : Nat} {level : Precedence} {tokens rest : List Token}
    {f : Formula α} : verdict stop level tokens = .ok (f, rest) ↔
      reach stop level tokens = .ok (f, rest) :=
  mapError_eq_ok_iff

/-! ### Steps -/

/-- Behind a formula in parentheses stands the closing one. -/
def closeGroup (opening : Token) (inner : Formula α) : List Token → Verdict (Formula α)
  | [] => .error ⟨opening.span, .unclosedParenthesis true⟩
  | closing :: rest =>
      if closing.kind = .closeParen then
        .ok (.paren inner (opening.span.cover closing.span), rest)
      else .error (unexpected [.closeParen] closing)

/-- Behind an argument stands the closing parenthesis, or a comma and another argument. -/
def afterArgument (stop : Nat) (opening : Span) (first : Formula α) :
    List Token → Verdict (List (Formula α) × Span)
  | [] => .error ⟨opening, .unclosedParenthesis true⟩
  | found :: rest =>
      if found.kind = .closeParen then .ok (([first], found.span), rest)
      else if found.kind = .comma then
        (argumentsVerdict stop opening rest).andThen fun others left =>
          .ok ((first :: others.1, others.2), left)
      else .error (unexpected [.comma, .closeParen] found)

/-- Behind a whole formula stands nothing. -/
def ending (whole : Formula α) : List Token → Verdict (Formula α)
  | [] => .ok (whole, [])
  | next :: _ =>
      .error ⟨next.span,
        if next.kind = .closeParen then .unclosedParenthesis false else .expectedEnd⟩

/-! ### Climbing -/

theorem verdict_eq (stop : Nat) (level : Precedence) (tokens : List Token) :
    (verdict stop level tokens : Verdict (Formula α)) =
      (operandVerdict stop tokens).andThen (climbVerdict stop level) := by
  rw [verdict, reach, operandVerdict, Reading.verdict]
  cases (operand stop tokens : Reading (Formula α) _).outcome <;> rfl

theorem shorter_of_verdict {stop : Nat} {level : Precedence} {tokens rest : List Token}
    {f : Formula α} (read : verdict stop level tokens = .ok (f, rest)) :
    rest.length < tokens.length := by
  rw [verdict_eq, Verdict.andThen, bind_eq_ok_iff] at read
  obtain ⟨⟨first, left⟩, readFirst, goesOn⟩ := read
  have fewer : left.length < tokens.length := Reading.shorter_of_verdict readFirst
  have noMore : rest.length < left.length + 1 := Reading.shorter_of_verdict goesOn
  omega

theorem verdict_climb_nil (stop : Nat) (level : Precedence) (left : Formula α) :
    climbVerdict stop level left [] = .ok (left, []) := by
  rw [climbVerdict, Reading.verdict, outcome_climb_nil]
  rfl

theorem verdict_climb_stops {stop : Nat} {level : Precedence} {left : Formula α} {sign : Token}
    {rest : List Token}
    (loose : ∀ op, sign.kind.binaryOp? = some op → op.precedence < level) :
    climbVerdict stop level left (sign :: rest) = .ok (left, sign :: rest) := by
  rw [climbVerdict, Reading.verdict, outcome_climb_stops loose]
  rfl

theorem verdict_climb_cons {stop : Nat} {level : Precedence} {left : Formula α} {sign : Token}
    {rest : List Token} {op : BinaryOp} (known : sign.kind.binaryOp? = some op)
    (tight : ¬ op.precedence < level) :
    climbVerdict stop level left (sign :: rest) =
      (verdict stop op.rightLevel rest).andThen fun right =>
        climbVerdict stop level (.binary op sign.span left right) := by
  rw [climbVerdict, Reading.verdict, outcome_climb_cons known tight, verdict]
  cases (reach stop op.rightLevel rest : Outcome (Formula α)) <;> rfl

/-- The next token ends a climb, or it is an operator that the climb takes. -/
theorem loose_or_tight (sign : Token) (level : Precedence) :
    (∀ op, sign.kind.binaryOp? = some op → op.precedence < level) ∨
      ∃ op, sign.kind.binaryOp? = some op ∧ ¬ op.precedence < level := by
  rw [Classical.or_iff_not_imp_left]
  intro taken
  push Not at taken
  exact taken

/-! ### Operands -/

/-- How a row of tokens begins, as far as the readers of operands can tell. -/
theorem front_cases {motive : List Token → Prop} (nil : motive [])
    (minus : ∀ (sign : Token) (rest : List Token), sign.kind = .minus → motive (sign :: rest))
    (number : ∀ (literal : Token) (rest : List Token), literal.IsNumber → motive (literal :: rest))
    (emptyGroup : ∀ (opening closing : Token) (rest : List Token), opening.kind = .openParen →
      closing.kind = .closeParen → motive (opening :: closing :: rest))
    (group : ∀ (opening : Token) (inside : List Token), opening.kind = .openParen →
      (∀ next ∈ inside.head?, next.kind ≠ .closeParen) → motive (opening :: inside))
    (symbol : ∀ (word : Token) (rest : List Token), word.kind = .name →
      (∀ next ∈ rest.head?, next.kind ≠ .openParen) → motive (word :: rest))
    (emptyCall : ∀ (word opening closing : Token) (rest : List Token), word.kind = .name →
      opening.kind = .openParen → closing.kind = .closeParen →
      motive (word :: opening :: closing :: rest))
    (call : ∀ (word opening : Token) (inside : List Token), word.kind = .name →
      opening.kind = .openParen → (∀ next ∈ inside.head?, next.kind ≠ .closeParen) →
      motive (word :: opening :: inside))
    (other : ∀ (found : Token) (rest : List Token),
      found.kind ∉ [.int, .float, .name, .openParen, .minus] → motive (found :: rest))
    (tokens : List Token) : motive tokens := by
  cases tokens with
  | nil => exact nil
  | cons first rest =>
    by_cases numeric : first.IsNumber
    · exact number first rest numeric
    by_cases negative : first.kind = .minus
    · exact minus first rest negative
    by_cases opens : first.kind = .openParen
    · by_cases filled : ∀ next ∈ rest.head?, next.kind ≠ .closeParen
      · exact group first rest opens filled
      · obtain ⟨closing, left, rfl, closes⟩ := Grammar.exists_next filled
        exact emptyGroup first closing left opens closes
    by_cases name : first.kind = .name
    · by_cases alone : ∀ next ∈ rest.head?, next.kind ≠ .openParen
      · exact symbol first rest name alone
      obtain ⟨opening, inside, rfl, opens⟩ := Grammar.exists_next alone
      by_cases filled : ∀ next ∈ inside.head?, next.kind ≠ .closeParen
      · exact call first opening inside name opens filled
      · obtain ⟨closing, left, rfl, closes⟩ := Grammar.exists_next filled
        exact emptyCall first opening closing left name opens closes
    · rw [Token.IsNumber, not_or] at numeric
      exact other first rest (by simp [numeric, name, opens, negative])

variable {stop : Nat} {rest : List Token}

theorem verdict_operand_nil (stop : Nat) :
    (operandVerdict stop [] : Verdict (Formula α)) = .error (atEnd stop .unexpectedEnd) := by
  rw [operandVerdict, Reading.verdict, outcome_operand_of_not_minus (by simp), primary]
  rfl

theorem verdict_operand_minus {sign : Token} (minus : sign.kind = .minus) :
    (operandVerdict stop (sign :: rest) : Verdict (Formula α)) =
      (verdict stop .neg rest).andThen fun whole left => .ok (.neg whole sign.span, left) := by
  rw [operandVerdict, Reading.verdict, outcome_operand_minus minus, verdict]
  cases (reach stop .neg rest : Outcome (Formula α)) <;> rfl

/-- An operand that does not begin with a minus sign is a primary part. -/
theorem verdict_operand_primary {first : Token} (positive : first.kind ≠ .minus) :
    (operandVerdict stop (first :: rest) : Verdict (Formula α)) =
      (primary stop (first :: rest)).verdict := by
  rw [operandVerdict, Reading.verdict, outcome_operand_of_not_minus (by simpa using positive),
    Reading.verdict]
  cases (primary stop (first :: rest) : Reading (Formula α) _).outcome <;> rfl

theorem verdict_operand_number {literal : Token} (number : literal.IsNumber) :
    (operandVerdict stop (literal :: rest) : Verdict (Formula α)) =
      match Numeral.ofLiteral? literal.lexeme with
      | some value => .ok (.number value literal.span, rest)
      | none => .error ⟨literal.span, .numberOutOfRange⟩ := by
  have positive : literal.kind ≠ .minus := by
    rcases number with int | float <;> simp [*]
  rw [verdict_operand_primary positive, Reading.verdict, outcome_primary_number number]
  cases (Numeral.ofLiteral? literal.lexeme : Option α) <;> rfl

theorem verdict_operand_emptyGroup {opening closing : Token} (opens : opening.kind = .openParen)
    (closes : closing.kind = .closeParen) :
    (operandVerdict stop (opening :: closing :: rest) : Verdict (Formula α)) =
      .error ⟨opening.span.cover closing.span, .emptyParenthesis⟩ := by
  rw [verdict_operand_primary (by simp [opens]), Reading.verdict, outcome_primary_group opens,
    outcome_group_empty opens closes]
  rfl

theorem verdict_operand_group {opening : Token} {inside : List Token}
    (opens : opening.kind = .openParen)
    (filled : ∀ next ∈ inside.head?, next.kind ≠ .closeParen) :
    (operandVerdict stop (opening :: inside) : Verdict (Formula α)) =
      (verdict stop .any inside).andThen (closeGroup opening) := by
  rw [verdict_operand_primary (by simp [opens]), Reading.verdict, outcome_primary_group opens,
    outcome_group opens filled, outcome_expression, verdict]
  cases (reach stop .any inside : Outcome (Formula α)) with
  | error => rfl
  | ok read =>
    obtain ⟨inner, left⟩ := read
    cases left with
    | nil => rfl
    | cons closing rest =>
      by_cases closes : closing.kind = .closeParen <;>
        simp [Except.mapError, Verdict.andThen, Except.bind, closeGroup, closes]

theorem verdict_operand_symbol {word : Token} (name : word.kind = .name)
    (alone : ∀ next ∈ rest.head?, next.kind ≠ .openParen) :
    (operandVerdict stop (word :: rest) : Verdict (Formula α)) =
      .ok (.symbol word.lexeme word.span, rest) := by
  rw [verdict_operand_primary (by simp [name]), Reading.verdict,
    outcome_primary_symbol name alone]
  rfl

theorem verdict_operand_emptyCall {word opening closing : Token} (name : word.kind = .name)
    (opens : opening.kind = .openParen) (closes : closing.kind = .closeParen) :
    (operandVerdict stop (word :: opening :: closing :: rest) : Verdict (Formula α)) =
      .ok (.call word.lexeme word.span [] (opening.span.cover closing.span), rest) := by
  rw [verdict_operand_primary (by simp [name]), Reading.verdict, outcome_primary_call name opens,
    outcome_callee_empty opens closes]
  rfl

theorem verdict_operand_call {word opening : Token} {inside : List Token}
    (name : word.kind = .name) (opens : opening.kind = .openParen)
    (filled : ∀ next ∈ inside.head?, next.kind ≠ .closeParen) :
    (operandVerdict stop (word :: opening :: inside) : Verdict (Formula α)) =
      (argumentsVerdict stop opening.span inside).andThen fun given left =>
        .ok (.call word.lexeme word.span given.1 (opening.span.cover given.2), left) := by
  rw [verdict_operand_primary (by simp [name]), Reading.verdict, outcome_primary_call name opens,
    outcome_callee opens filled, argumentsVerdict, Reading.verdict]
  cases (arguments stop opening.span inside : Reading (List (Formula α) × Span) _).outcome <;> rfl

/-- A token that begins no operand is blamed; a closing parenthesis, for having no partner. -/
theorem verdict_operand_other {found : Token}
    (other : found.kind ∉ [.int, .float, .name, .openParen, .minus]) :
    (operandVerdict stop (found :: rest) : Verdict (Formula α)) =
      .error ⟨found.span,
        if found.kind = .closeParen then .unclosedParenthesis false
        else .unexpectedToken [.int, .float, .name, .openParen, .minus] found.kind⟩ := by
  have positive : found.kind ≠ .minus := fun minus => other (by simp [minus])
  rw [verdict_operand_primary positive, Reading.verdict]
  obtain ⟨kind, span, lexeme⟩ := found
  rw [primary]
  cases kind <;> first | rfl | simp at other

theorem verdict_arguments (stop : Nat) (opening : Span) (tokens : List Token) :
    (argumentsVerdict stop opening tokens : Verdict (List (Formula α) × Span)) =
      (verdict stop .any tokens).andThen (afterArgument stop opening) := by
  rw [argumentsVerdict, Reading.verdict, outcome_arguments, outcome_expression, verdict]
  cases (reach stop .any tokens : Outcome (Formula α)) with
  | error => rfl
  | ok read =>
    obtain ⟨first, left⟩ := read
    cases left with
    | nil => rfl
    | cons found rest =>
      simp only [Except.mapError, Verdict.andThen, Except.bind, afterArgument, argumentsVerdict,
        Reading.verdict]
      cases (arguments stop opening rest : Reading (List (Formula α) × Span) _).outcome <;>
        split_ifs <;> rfl

/-! ### Rows of tokens -/

/-- The formula that a row of tokens is, in a text that ends at the place `stop`. -/
def ofTokens (stop : Nat) (tokens : List Token) : Except (Located ParseCause) (Formula α) :=
  (complete stop (expression stop) tokens).toExcept

/-- A text is the formula that its significant tokens are. -/
theorem parse_eq_ofTokens (text : String) :
    (parse text : Except _ (Formula α)) =
      ofTokens (utf8Length text.toList) (significant (tokenize text)) :=
  rfl

theorem ofTokens_of_ne_nil (stop : Nat) {tokens : List Token} (filled : tokens ≠ []) :
    (ofTokens stop tokens : Except _ (Formula α)) =
      ((verdict stop .any tokens).andThen ending).map Prod.fst := by
  obtain ⟨first, others, rfl⟩ := List.exists_cons_of_ne_nil filled
  rw [verdict, ← outcome_expression, ofTokens, toExcept_eq, outcome_complete_cons]
  cases (expression stop (first :: others) : Reading (Formula α) _).outcome with
  | error fault => rfl
  | ok read =>
    obtain ⟨whole, rest⟩ := read
    cases rest with
    | nil => rfl
    | cons next rest =>
      simp only [Except.mapError, Verdict.andThen, Except.bind, ending]
      split_ifs <;> rfl

theorem ofTokens_eq_error_iff {stop : Nat} {tokens : List Token} {fault : Located ParseCause}
    (filled : tokens ≠ []) :
    (ofTokens stop tokens : Except _ (Formula α)) = .error fault ↔
      (verdict stop .any tokens : Verdict (Formula α)).andThen ending = .error fault := by
  rw [ofTokens_of_ne_nil stop filled]
  cases (verdict stop .any tokens : Verdict (Formula α)).andThen ending <;> simp [Except.map]

theorem verdict_andThen_ending_eq_ok_iff {stop : Nat} {tokens left : List Token} {f : Formula α} :
    (verdict stop .any tokens).andThen ending = .ok (f, left) ↔
      reach stop .any tokens = .ok (f, []) ∧ left = [] := by
  rw [← verdict_eq_ok_iff, Verdict.andThen, bind_eq_ok_iff]
  constructor
  · rintro ⟨⟨whole, rest⟩, read, ended⟩
    cases rest with
    | nil =>
      cases ended
      exact ⟨read, rfl⟩
    | cons next rest => cases ended
  · rintro ⟨read, rfl⟩
    exact ⟨(f, []), read, rfl⟩

/-- A row of tokens is the formula that it derives. -/
theorem ofTokens_eq_ok_iff_derives (stop : Nat) (tokens : List Token) (f : Formula α) :
    ofTokens stop tokens = .ok f ↔ Grammar.Derives .expr tokens f := by
  constructor
  · intro read
    have filled : tokens ≠ [] := by
      rintro rfl
      cases read
    rw [ofTokens_of_ne_nil stop filled] at read
    obtain ⟨⟨whole, left⟩, ended, same⟩ := map_eq_ok_iff.1 read
    cases same
    obtain ⟨taken, rfl, derives, -⟩ :=
      reach_sound _ (verdict_andThen_ending_eq_ok_iff.1 ended).1
    rwa [List.append_nil]
  · rintro ⟨d, rfl, read⟩
    obtain ⟨first, others, yields, -⟩ := d.begins
    have follows : Follows .expr [] := ⟨Grammar.fits_nil _, by rintro _ ⟨⟩⟩
    have reading : reach stop .any (d.yield ++ []) = (climb stop .any f []).outcome :=
      reach_derivation d read (by decide) follows
    rw [List.append_nil, outcome_climb_nil] at reading
    rw [ofTokens_of_ne_nil stop (by simp [yields]),
      verdict_andThen_ending_eq_ok_iff.2 ⟨reading, rfl⟩]
    rfl

end Formula

end SymbolicCalculus
