/-
Module: SymbolicCalculus.Proofs.Formula.Parsing
Layer: Proofs
Purpose: Reading a text is deriving its tokens. The readers climb along the operators instead of following
  the productions, and hand the operators to each other by their precedence; nevertheless they accept
  exactly what the grammar derives, and the formula that they answer is that of the only derivation.
  What a climb has put together so far always belongs to a category which the next operator cannot take
  apart: that is the invariant behind both directions.
Main exports: Grammar.Fits, Derives.binary, Formula.reach_sound, Formula.reach_derivation,
  Formula.parse_eq_ok_iff_derives, Formula.parse_iff_derivation
-/
import SymbolicCalculus.Double
import SymbolicCalculus.Proofs.Formula.Grammar
import SymbolicCalculus.Proofs.Formula.Readers
import SymbolicCalculus.Proofs.Success

namespace SymbolicCalculus

namespace Grammar

/-! ### Categories and levels -/

/-- The category of all that a climb to the level puts together. -/
def Category.reached : Precedence → Category
  | .any | .term => .expr
  | .factor => .term
  | .neg | .exp => .unary

/-- The tightest operator that leaves a part of the category together. -/
def Category.tightest : Category → Precedence
  | .expr => .term
  | .term => .factor
  | .unary | .power => .neg
  | .primary => .exp

/-- The next token is no operator that would take a part of the category apart. -/
def Fits (c : Category) (rest : List Token) : Prop :=
  ∀ sign ∈ rest.head?, ∀ op, sign.kind.binaryOp? = some op → op.precedence ≤ c.tightest

/-- The next token is no operator that binds at least as tightly as the level. -/
def Stops (level : Precedence) (rest : List Token) : Prop :=
  ∀ sign ∈ rest.head?, ∀ op, sign.kind.binaryOp? = some op → op.precedence < level

theorem fits_nil (c : Category) : Fits c [] := by
  rintro _ ⟨⟩

theorem stops_nil (level : Precedence) : Stops level [] := by
  rintro _ ⟨⟩

/-- Nothing takes a primary part apart. -/
theorem fits_primary (rest : List Token) : Fits .primary rest := by
  intro sign _ op _
  cases op <;> decide

/-- What stops the climb for a right operand leaves the whole together. -/
theorem Stops.fits_madeBy {op : BinaryOp} {rest : List Token} (stops : Stops op.rightLevel rest) :
    Fits (.madeBy op.precedence) rest := by
  intro sign mem other known
  have loose := stops sign mem other known
  revert loose
  cases op <;> cases other <;> decide

/-- What an operator makes belongs to the category of every climb that the operator does not stop. -/
theorem looseness_madeBy {op : BinaryOp} {level : Precedence} (tight : ¬ op.precedence < level) :
    (Category.madeBy op.precedence).looseness ≤ (Category.reached level).looseness := by
  revert tight
  cases op <;> cases level <;> decide

/-- A row that may begin with a token of the kind begins with one. -/
theorem exists_next {kind : TokenKind} {tokens : List Token}
    (filled : ¬ ∀ next ∈ tokens.head?, next.kind ≠ kind) :
    ∃ next rest, tokens = next :: rest ∧ next.kind = kind := by
  cases tokens with
  | nil => exact absurd (by rintro _ ⟨⟩) filled
  | cons next rest =>
    refine ⟨next, rest, rfl, Decidable.byContradiction fun other => filled ?_⟩
    rintro _ ⟨⟩
    exact other

/-- Every derivation begins with a token that can begin an operand; only those of the two loosest kinds
    of operand begin with a minus sign. -/
theorem Derivation.begins :
    ∀ {c : Category} (d : Derivation c), ∃ first others, d.yield = first :: others ∧
      first.kind ≠ .closeParen ∧ (c.looseness ≤ Category.power.looseness → first.kind ≠ .minus)
  | _, .ofTerm term => by
      obtain ⟨first, others, yields, opens, -⟩ := term.begins
      exact ⟨first, others, yields, opens, fun tight => absurd tight (by decide)⟩
  | _, .sum left sign right => by
      obtain ⟨first, others, yields, opens, -⟩ := left.begins
      exact ⟨first, others ++ sign.token :: right.yield, by rw [Derivation.yield, yields]; rfl,
        opens, fun tight => absurd tight (by decide)⟩
  | _, .product left sign right => by
      obtain ⟨first, others, yields, opens, -⟩ := left.begins
      exact ⟨first, others ++ sign.token :: right.yield, by rw [Derivation.yield, yields]; rfl,
        opens, fun tight => absurd tight (by decide)⟩
  | _, .ofUnary unary => by
      obtain ⟨first, others, yields, opens, -⟩ := unary.begins
      exact ⟨first, others, yields, opens, fun tight => absurd tight (by decide)⟩
  | _, .minus sign operand =>
      ⟨sign.token, operand.yield, rfl, by rw [sign.is_kind]; decide,
        fun tight => absurd tight (by decide)⟩
  | _, .ofPower power => by
      obtain ⟨first, others, yields, opens, -⟩ := power.begins
      exact ⟨first, others, yields, opens, fun tight => absurd tight (by decide)⟩
  | _, .raised base sign exponent => by
      obtain ⟨first, others, yields, opens, positive⟩ := base.begins
      exact ⟨first, others ++ sign.token :: exponent.yield, by rw [Derivation.yield, yields]; rfl,
        opens, fun _ => positive (by decide)⟩
  | _, .ofPrimary primary => by
      obtain ⟨first, others, yields, opens, positive⟩ := primary.begins
      exact ⟨first, others, yields, opens, fun _ => positive (by decide)⟩
  | _, .number literal numeric => by
      refine ⟨literal, [], rfl, ?_, fun _ => ?_⟩ <;>
        rcases numeric with int | float <;> simp [*]
  | _, .name word =>
      ⟨word.token, [], rfl, by rw [word.is_kind]; decide, fun _ => by rw [word.is_kind]; decide⟩
  | _, .group opening inner closing =>
      ⟨opening.token, _, rfl, by rw [opening.is_kind]; decide,
        fun _ => by rw [opening.is_kind]; decide⟩
  | _, .emptyCall word opening closing =>
      ⟨word.token, _, rfl, by rw [word.is_kind]; decide, fun _ => by rw [word.is_kind]; decide⟩
  | _, .call word opening given closing =>
      ⟨word.token, _, rfl, by rw [word.is_kind]; decide, fun _ => by rw [word.is_kind]; decide⟩

theorem Arguments.begins (given : Arguments) :
    ∃ first others, given.yield = first :: others ∧ first.kind ≠ .closeParen := by
  cases given with
  | last argument =>
    obtain ⟨first, others, yields, opens, -⟩ := argument.begins
    exact ⟨first, others, yields, opens⟩
  | more argument comma given =>
    obtain ⟨first, others, yields, opens, -⟩ := argument.begins
    exact ⟨first, others ++ comma.token :: given.yield, by rw [Arguments.yield, yields]; rfl, opens⟩

/-! ### Productions on tokens -/

section Productions

variable {α : Type} [Numeral α] {c c' : Category} {tokens left right : List Token}
  {f l r : Formula α}

/-- A part of a category is a part of every looser one. -/
theorem Derives.widen (bound : c.looseness ≤ c'.looseness) (derives : Derives c tokens f) :
    Derives c' tokens f := by
  obtain ⟨d, yields, reads⟩ := derives
  cases c with
  | primary =>
    cases c' with
    | primary => exact ⟨d, yields, reads⟩
    | power => exact ⟨.ofPrimary d, yields, reads⟩
    | unary => exact ⟨.ofPower (.ofPrimary d), yields, reads⟩
    | term => exact ⟨.ofUnary (.ofPower (.ofPrimary d)), yields, reads⟩
    | expr => exact ⟨.ofTerm (.ofUnary (.ofPower (.ofPrimary d))), yields, reads⟩
  | power =>
    cases c' with
    | primary => exact absurd bound (by decide)
    | power => exact ⟨d, yields, reads⟩
    | unary => exact ⟨.ofPower d, yields, reads⟩
    | term => exact ⟨.ofUnary (.ofPower d), yields, reads⟩
    | expr => exact ⟨.ofTerm (.ofUnary (.ofPower d)), yields, reads⟩
  | unary =>
    cases c' with
    | primary | power => exact absurd bound (by decide)
    | unary => exact ⟨d, yields, reads⟩
    | term => exact ⟨.ofUnary d, yields, reads⟩
    | expr => exact ⟨.ofTerm (.ofUnary d), yields, reads⟩
  | term =>
    cases c' with
    | primary | power | unary => exact absurd bound (by decide)
    | term => exact ⟨d, yields, reads⟩
    | expr => exact ⟨.ofTerm d, yields, reads⟩
  | expr =>
    cases c' with
    | primary | power | unary | term => exact absurd bound (by decide)
    | expr => exact ⟨d, yields, reads⟩

theorem Derives.sum (sign : Sign .term) (first : Derives .expr left l)
    (second : Derives .term right r) :
    Derives .expr (left ++ sign.token :: right) (.binary sign.op sign.token.span l r) := by
  obtain ⟨d, rfl, reads⟩ := first
  obtain ⟨d', rfl, reads'⟩ := second
  exact ⟨.sum d sign d', rfl, by simp [Derivation.tree?, reads, reads']⟩

theorem Derives.product (sign : Sign .factor) (first : Derives .term left l)
    (second : Derives .unary right r) :
    Derives .term (left ++ sign.token :: right) (.binary sign.op sign.token.span l r) := by
  obtain ⟨d, rfl, reads⟩ := first
  obtain ⟨d', rfl, reads'⟩ := second
  exact ⟨.product d sign d', rfl, by simp [Derivation.tree?, reads, reads']⟩

theorem Derives.raised (sign : Sign .exp) (first : Derives .primary left l)
    (second : Derives .unary right r) :
    Derives .power (left ++ sign.token :: right) (.binary sign.op sign.token.span l r) := by
  obtain ⟨d, rfl, reads⟩ := first
  obtain ⟨d', rfl, reads'⟩ := second
  exact ⟨.raised d sign d', rfl, by simp [Derivation.tree?, reads, reads']⟩

/-- An operator joins a left operand that it leaves together and a right operand of its level. -/
theorem Derives.binary {sign : Token} {op : BinaryOp} (known : sign.kind.binaryOp? = some op)
    (whole : op.precedence ≤ c.tightest) (first : Derives c left l)
    (second : Derives (.reached op.rightLevel) right r) :
    Derives (.madeBy op.precedence) (left ++ sign :: right) (.binary op sign.span l r) := by
  cases op with
  | add | sub => exact .sum ⟨sign, _, known, rfl⟩ (first.widen (by cases c <;> decide)) second
  | mul | div =>
    exact .product ⟨sign, _, known, rfl⟩ (first.widen (by revert whole; cases c <;> decide)) second
  | pow =>
    exact .raised ⟨sign, _, known, rfl⟩ (first.widen (by revert whole; cases c <;> decide)) second

theorem Derives.minus {sign : Token} (is_minus : sign.kind = .minus) (operand : Derives .unary tokens f) :
    Derives .unary (sign :: tokens) (.neg f sign.span) := by
  obtain ⟨d, rfl, reads⟩ := operand
  exact ⟨.minus ⟨sign, is_minus⟩ d, rfl, by simp [Derivation.tree?, reads]⟩

theorem Derives.number {literal : Token} {value : α} (numeric : literal.IsNumber)
    (read : Numeral.ofLiteral? literal.lexeme = some value) :
    Derives .primary [literal] (.number value literal.span) :=
  ⟨.number literal numeric, rfl, by simp [Derivation.tree?, read]⟩

theorem Derives.symbol {word : Token} (name : word.kind = .name) :
    Derives .primary [word] (.symbol word.lexeme word.span : Formula α) :=
  ⟨.name ⟨word, name⟩, rfl, rfl⟩

theorem Derives.paren {opening closing : Token} (opens : opening.kind = .openParen)
    (closes : closing.kind = .closeParen) (inner : Derives .expr tokens f) :
    Derives .primary (opening :: (tokens ++ [closing]))
      (.paren f (opening.span.cover closing.span)) := by
  obtain ⟨d, rfl, reads⟩ := inner
  exact ⟨.group ⟨opening, opens⟩ d ⟨closing, closes⟩, rfl, by simp [Derivation.tree?, reads]⟩

/-- The tokens of arguments that are read as a row of formulas. -/
def DerivesRow (tokens : List Token) (row : List (Formula α)) : Prop :=
  ∃ given : Arguments, given.yield = tokens ∧ given.trees? = some row

theorem DerivesRow.last (argument : Derives .expr tokens f) : DerivesRow tokens [f] := by
  obtain ⟨d, rfl, reads⟩ := argument
  exact ⟨.last d, rfl, by simp [Arguments.trees?, reads]⟩

theorem DerivesRow.more {comma : Token} {row : List (Formula α)} (separates : comma.kind = .comma)
    (argument : Derives .expr left f) (others : DerivesRow right row) :
    DerivesRow (left ++ comma :: right) (f :: row) := by
  obtain ⟨d, rfl, reads⟩ := argument
  obtain ⟨given, rfl, reads'⟩ := others
  exact ⟨.more d ⟨comma, separates⟩ given, rfl, by simp [Arguments.trees?, reads, reads']⟩

theorem Derives.emptyCall {word opening closing : Token} (name : word.kind = .name)
    (opens : opening.kind = .openParen) (closes : closing.kind = .closeParen) :
    Derives .primary [word, opening, closing]
      (.call word.lexeme word.span [] (opening.span.cover closing.span) : Formula α) :=
  ⟨.emptyCall ⟨word, name⟩ ⟨opening, opens⟩ ⟨closing, closes⟩, rfl, rfl⟩

theorem Derives.call {word opening closing : Token} {row : List (Formula α)}
    (name : word.kind = .name) (opens : opening.kind = .openParen)
    (closes : closing.kind = .closeParen) (given : DerivesRow tokens row) :
    Derives .primary (word :: opening :: (tokens ++ [closing]))
      (.call word.lexeme word.span row (opening.span.cover closing.span)) := by
  obtain ⟨arguments, rfl, reads⟩ := given
  exact ⟨.call ⟨word, name⟩ ⟨opening, opens⟩ arguments ⟨closing, closes⟩, rfl,
    by simp [Derivation.tree?, reads]⟩

end Productions

end Grammar

namespace Formula

open Grammar

variable {α : Type} [Numeral α] {stop : Nat} {level : Precedence} {tokens rest : List Token}
  {f : Formula α}

/-! ### What is read is derived

A reading takes tokens off the front of a row. All readers come back to the climb on fewer tokens, so the
statement about each of them is proved under the assumption that shorter rows are read soundly. -/

/-- A climb that succeeds has taken tokens that derive what it answers, and all that it could. -/
def ReadsSoundly (α : Type) [Numeral α] (stop : Nat) (tokens : List Token) : Prop :=
  ∀ {level : Precedence} {f : Formula α} {rest : List Token},
    reach stop level tokens = .ok (f, rest) →
      ∃ taken, tokens = taken ++ rest ∧ Derives (.reached level) taken f ∧ Stops level rest

theorem arguments_sound {opening : Span} {row : List (Formula α)} {closing : Span}
    (sound : ∀ shorter : List Token, shorter.length ≤ tokens.length → ReadsSoundly α stop shorter)
    (done : (arguments stop opening tokens).outcome = .ok ((row, closing), rest)) :
    ∃ taken last, tokens = taken ++ last :: rest ∧ last.kind = .closeParen ∧
      last.span = closing ∧ DerivesRow taken row := by
  induction len : tokens.length using Nat.strongRecOn generalizing tokens row with
  | ind n ih =>
    rw [outcome_arguments, outcome_expression] at done
    split at done
    · cases done
    · cases done
    · next first found left read =>
      obtain ⟨taken, rfl, derives, -⟩ := sound tokens (Nat.le_refl _) read
      split at done
      · next closes =>
        cases done
        exact ⟨taken, found, rfl, closes, rfl, .last derives⟩
      · split at done
        · next separates =>
          obtain ⟨⟨⟨others, span⟩, after⟩, readOthers, same⟩ := map_eq_ok_iff.1 done
          cases same
          have shorter : left.length < n := by
            rw [← len, List.length_append, List.length_cons]
            omega
          obtain ⟨taken', last, rfl, closes, spans, row'⟩ :=
            ih left.length shorter
              (fun row bound => sound row (by rw [len]; omega)) readOthers rfl
          exact ⟨taken ++ found :: taken', last, by simp, closes, spans,
            .more separates derives row'⟩
        · cases done

theorem primary_sound {first : Token} {inside : List Token}
    (sound : ∀ shorter : List Token, shorter.length ≤ inside.length → ReadsSoundly α stop shorter)
    (done : (primary stop (first :: inside)).outcome = .ok (f, rest)) :
    ∃ taken, first :: inside = taken ++ rest ∧ Derives .primary taken f := by
  by_cases numeric : first.IsNumber
  · rw [outcome_primary_number numeric] at done
    split at done
    · next value read =>
      cases done
      exact ⟨[first], rfl, .number numeric read⟩
    · cases done
  by_cases opens : first.kind = .openParen
  · rw [outcome_primary_group opens, mapError_eq_ok_iff] at done
    by_cases filled : ∀ next ∈ inside.head?, next.kind ≠ .closeParen
    · rw [outcome_group opens filled, outcome_expression] at done
      split at done
      · cases done
      · cases done
      · next inner closing left read =>
        obtain ⟨taken, rfl, derives, -⟩ := sound inside (Nat.le_refl _) read
        split at done
        · next closes =>
          cases done
          exact ⟨first :: (taken ++ [closing]), by simp, .paren opens closes derives⟩
        · cases done
    · -- nothing stands between the parentheses
      obtain ⟨closing, left, rfl, closes⟩ := exists_next filled
      rw [outcome_group_empty opens closes] at done
      cases done
  by_cases name : first.kind = .name
  · by_cases called : ∀ next ∈ inside.head?, next.kind ≠ .openParen
    · rw [outcome_primary_symbol name called] at done
      cases done
      exact ⟨[first], rfl, .symbol name⟩
    obtain ⟨opening, left, rfl, opens⟩ := exists_next called
    rw [outcome_primary_call name opens] at done
    by_cases filled : ∀ next ∈ left.head?, next.kind ≠ .closeParen
    · rw [outcome_callee opens filled] at done
      obtain ⟨⟨⟨row, span⟩, after⟩, read, same⟩ := map_eq_ok_iff.1 done
      cases same
      obtain ⟨taken, closing, rfl, closes, rfl, derives⟩ :=
        arguments_sound (fun shorter bound => sound shorter (Nat.le_succ_of_le bound)) read
      exact ⟨first :: opening :: (taken ++ [closing]), by simp, .call name opens closes derives⟩
    · obtain ⟨closing, after, rfl, closes⟩ := exists_next filled
      rw [outcome_callee_empty opens closes] at done
      cases done
      exact ⟨[first, opening, closing], rfl, .emptyCall name opens closes⟩
  · have other : first.kind ∉ [.int, .float, .name, .openParen] := by
      simp only [Token.IsNumber, not_or] at numeric
      simp [numeric, name, opens]
    have failed : ∃ cause, (primary stop (first :: inside) : Reading (Formula α) _).outcome =
        .error (⟨first.span, cause⟩, first :: inside) := outcome_primary_other other
    obtain ⟨cause, failed⟩ := failed
    rw [failed] at done
    cases done

/-- An operand is primary, or a minus sign with all that the sign can take. -/
theorem operand_sound
    (sound : ∀ shorter : List Token, shorter.length < tokens.length → ReadsSoundly α stop shorter)
    (done : (operand stop tokens).outcome = .ok (f, rest)) :
    ∃ c taken, taken ≠ [] ∧ tokens = taken ++ rest ∧ Derives c taken f ∧ Fits c rest ∧
      c.looseness ≤ Category.unary.looseness := by
  cases tokens with
  | nil =>
    rw [outcome_operand_of_not_minus (by simp), mapError_eq_ok_iff, primary] at done
    cases done
  | cons first inside =>
    by_cases minus : first.kind = .minus
    · rw [outcome_operand_minus minus] at done
      obtain ⟨⟨whole, left⟩, read, same⟩ := map_eq_ok_iff.1 done
      cases same
      obtain ⟨taken, rfl, derives, stops⟩ := sound inside (by simp) read
      refine ⟨.unary, first :: taken, by simp, rfl, .minus minus derives, ?_, Nat.le_refl _⟩
      intro sign mem op known
      exact Nat.le_of_lt (stops sign mem op known)
    · rw [outcome_operand_of_not_minus (by simpa using minus), mapError_eq_ok_iff] at done
      obtain ⟨taken, split_, derives⟩ :=
        primary_sound (fun shorter bound => sound shorter (by simpa using Nat.lt_succ_of_le bound))
          done
      refine ⟨.primary, taken, ?_, split_, derives, fits_primary _, by decide⟩
      -- a primary part is at least one token
      obtain ⟨d, rfl, -⟩ := derives
      obtain ⟨begins, others, yields, -⟩ := d.begins
      rw [yields]
      exact List.cons_ne_nil _ _

/-- A climb keeps what it has put together whole, and takes more tokens only with an operator. -/
theorem climb_sound {c : Category} {consumed : List Token} {left : Formula α}
    (sound : ∀ shorter : List Token, shorter.length < tokens.length → ReadsSoundly α stop shorter)
    (derives : Derives c consumed left) (fits : Fits c tokens)
    (reached : c.looseness ≤ (Category.reached level).looseness)
    (done : (climb stop level left tokens).outcome = .ok (f, rest)) :
    ∃ more, tokens = more ++ rest ∧ Derives (.reached level) (consumed ++ more) f ∧
      Stops level rest := by
  -- each operator shortens the tokens, so the climb is followed by induction on their number
  induction len : tokens.length using Nat.strongRecOn generalizing tokens c consumed left with
  | ind n ih =>
    cases tokens with
    | nil =>
      rw [outcome_climb_nil] at done
      cases done
      exact ⟨[], rfl, by simpa using derives.widen reached, stops_nil level⟩
    | cons sign inside =>
      by_cases loose : ∀ op, sign.kind.binaryOp? = some op → op.precedence < level
      · rw [outcome_climb_stops loose] at done
        cases done
        refine ⟨[], rfl, by simpa using derives.widen reached, ?_⟩
        rintro _ ⟨⟩
        exact loose
      · obtain ⟨op, known, tight⟩ : ∃ op, sign.kind.binaryOp? = some op ∧ ¬ op.precedence < level := by
          cases known : sign.kind.binaryOp? with
          | none => exact absurd (fun op found => by cases known.symm.trans found) loose
          | some op =>
            refine ⟨op, rfl, fun low => loose fun other found => ?_⟩
            cases known.symm.trans found
            exact low
        rw [outcome_climb_cons known tight] at done
        obtain ⟨⟨right, after⟩, readRight, goesOn⟩ := bind_eq_ok_iff.1 done
        obtain ⟨taken, rfl, derivesRight, stops⟩ := sound inside (by simp) readRight
        have whole : op.precedence ≤ c.tightest := fits sign rfl op known
        have shorter : after.length < n := by
          rw [← len, List.length_cons, List.length_append]
          omega
        obtain ⟨more, rfl, derivesAll, ends⟩ :=
          ih after.length shorter (fun row bound => sound row (by rw [len]; omega))
            (derives.binary known whole derivesRight) stops.fits_madeBy (looseness_madeBy tight)
            goesOn rfl
        exact ⟨sign :: (taken ++ more), by simp, by simpa using derivesAll, ends⟩

theorem reach_sound (tokens : List Token) : ReadsSoundly α stop tokens := by
  induction len : tokens.length using Nat.strongRecOn generalizing tokens with
  | ind n ih =>
    intro level f rest read
    have sound : ∀ shorter : List Token, shorter.length < tokens.length →
        ReadsSoundly α stop shorter := by
      intro shorter bound
      exact ih shorter.length (by rw [← len]; exact bound) shorter rfl
    obtain ⟨⟨first, left⟩, readFirst, goesOn⟩ := bind_eq_ok_iff.1 read
    obtain ⟨c, taken, filled, rfl, derives, fits, unary⟩ := operand_sound sound readFirst
    have reached : c.looseness ≤ (Category.reached level).looseness :=
      Nat.le_trans unary (by cases level <;> decide)
    obtain ⟨more, rfl, derivesAll, stops⟩ :=
      climb_sound (fun shorter bound => sound shorter (by rw [List.length_append]; omega))
        derives fits reached goesOn
    exact ⟨taken ++ more, (List.append_assoc _ _ _).symm, derivesAll, stops⟩

/-! ### What is derived is read

The climb on a derived row is where it would be had the row been its left operand from the start. This
equation, unlike one that ends at the row's last token, passes through the productions that group to the
left. -/

/-- Neither an operator that would take the category apart nor an opening parenthesis comes next. -/
def Follows (c : Category) (rest : List Token) : Prop :=
  Fits c rest ∧ ∀ next ∈ rest.head?, next.kind ≠ .openParen

theorem follows_sign {c : Category} {level : Precedence} (sign : Sign level) (rest : List Token)
    (whole : level ≤ c.tightest) : Follows c (sign.token :: rest) := by
  constructor
  · rintro _ ⟨⟩ op known
    cases known.symm.trans sign.known
    rw [sign.binds]
    exact whole
  · rintro _ ⟨⟩ opens
    have known := sign.known
    rw [opens] at known
    cases known

theorem follows_word {kind : TokenKind} (c : Category) (word : Word kind) (rest : List Token)
    (noOperator : kind.binaryOp? = none) (noOpening : kind ≠ .openParen) :
    Follows c (word.token :: rest) := by
  constructor
  · rintro _ ⟨⟩ op known
    rw [word.is_kind, noOperator] at known
    cases known
  · rintro _ ⟨⟩ opens
    exact noOpening (word.is_kind.symm.trans opens)

/-- What follows a loose category follows a tight one. -/
theorem Follows.tighten {c c' : Category} (follows : Follows c rest)
    (tighter : c.tightest ≤ c'.tightest) : Follows c' rest :=
  ⟨fun sign mem op known => Nat.le_trans (follows.1 sign mem op known) tighter, follows.2⟩

theorem outcome_climb_of_stops {left : Formula α} (stops : Stops level rest) :
    (climb stop level left rest).outcome = .ok (left, rest) := by
  cases rest with
  | nil => exact outcome_climb_nil stop level left
  | cons sign others => exact outcome_climb_stops (stops sign rfl)

/-- A word that is no operator ends every climb. -/
theorem outcome_climb_word {kind : TokenKind} (stop : Nat) (level : Precedence) (left : Formula α)
    (word : Word kind) (rest : List Token) (noOperator : kind.binaryOp? = none) :
    (climb stop level left (word.token :: rest)).outcome = .ok (left, word.token :: rest) := by
  refine outcome_climb_stops fun op known => ?_
  rw [word.is_kind, noOperator] at known
  cases known

/-- What leaves the whole together stops the climb for its right operand. -/
theorem Follows.stops {op : BinaryOp} (follows : Follows (.madeBy op.precedence) rest) :
    Stops op.rightLevel rest := by
  intro sign mem other known
  have fits := follows.1 sign mem other known
  revert fits
  cases op <;> cases other <;> decide

/-- What leaves an operand of a minus sign together stops the climb for it. -/
theorem Follows.stops_neg (follows : Follows .unary rest) : Stops .neg rest := by
  intro sign mem op known
  have fits := follows.1 sign mem op known
  revert fits
  cases op <;> decide

/-- An operator that the climb may reach, between two operands that are read, is read with them. -/
theorem reach_infix {binding : Precedence} (sign : Sign binding) {l r : Formula α}
    {left right : List Token}
    (reached : (Category.madeBy binding).looseness ≤ (Category.reached level).looseness)
    (follows : Follows (.madeBy binding) rest)
    (front : reach stop level (left ++ sign.token :: (right ++ rest)) =
      (climb stop level l (sign.token :: (right ++ rest))).outcome)
    (back : reach stop sign.op.rightLevel (right ++ rest) =
      (climb stop sign.op.rightLevel r rest).outcome) :
    reach stop level (left ++ sign.token :: right ++ rest) =
      (climb stop level (.binary sign.op sign.token.span l r) rest).outcome := by
  have tight : ¬ sign.op.precedence < level := by
    rw [← sign.binds] at reached
    revert reached
    cases sign.op <;> cases level <;> decide
  have ends : Stops sign.op.rightLevel rest := Follows.stops (by rw [sign.binds]; exact follows)
  rw [List.append_assoc, List.cons_append, front, outcome_climb_cons sign.known tight, back,
    outcome_climb_of_stops ends]
  rfl

mutual

/-- A derivation is read up to its formula, and the climb goes on from there. -/
theorem reach_derivation :
    ∀ {c : Category} (d : Derivation c) {f : Formula α} {level : Precedence} {rest : List Token},
      d.tree? = some f → c.looseness ≤ (Category.reached level).looseness → Follows c rest →
      reach stop level (d.yield ++ rest) = (climb stop level f rest).outcome
  | _, .sum left sign right, f, level, rest, read, reached, follows => by
      obtain ⟨l, readLeft, tail⟩ := Option.bind_eq_some_iff.1 read
      obtain ⟨r, readRight, rfl⟩ := Option.map_eq_some_iff.1 tail
      have reachedRight :
          Category.term.looseness ≤ (Category.reached sign.op.rightLevel).looseness := by
        have binds := sign.binds
        revert binds
        cases sign.op <;> decide
      refine reach_infix sign reached follows ?_ ?_
      · exact reach_derivation left readLeft reached (follows_sign sign _ (by decide))
      · exact reach_derivation right readRight reachedRight (follows.tighten (by decide))
  | _, .ofTerm term, f, level, rest, read, reached, follows =>
      reach_derivation term read (Nat.le_of_succ_le reached) (follows.tighten (by decide))
  | _, .product left sign right, f, level, rest, read, reached, follows => by
      obtain ⟨l, readLeft, tail⟩ := Option.bind_eq_some_iff.1 read
      obtain ⟨r, readRight, rfl⟩ := Option.map_eq_some_iff.1 tail
      refine reach_infix sign reached follows ?_ ?_
      · exact reach_derivation left readLeft reached (follows_sign sign _ (by decide))
      · exact reach_derivation right readRight (by cases sign.op <;> decide)
          (follows.tighten (by decide))
  | _, .ofUnary unary, f, level, rest, read, reached, follows =>
      reach_derivation unary read (Nat.le_of_succ_le reached) (follows.tighten (by decide))
  | _, .minus sign operand, f, level, rest, read, reached, follows => by
      obtain ⟨inner, readInner, rfl⟩ := Option.map_eq_some_iff.1 read
      rw [Derivation.yield, List.cons_append, reach, outcome_operand_minus sign.is_kind,
        reach_derivation operand readInner (by decide) follows,
        outcome_climb_of_stops follows.stops_neg]
      rfl
  | _, .ofPower power, f, level, rest, read, reached, follows =>
      reach_derivation power read (Nat.le_of_succ_le reached) (follows.tighten (by decide))
  | _, .raised base sign exponent, f, level, rest, read, reached, follows => by
      obtain ⟨l, readLeft, tail⟩ := Option.bind_eq_some_iff.1 read
      obtain ⟨r, readRight, rfl⟩ := Option.map_eq_some_iff.1 tail
      refine reach_infix sign reached follows ?_ ?_
      · exact reach_derivation base readLeft (Nat.zero_le _) (follows_sign sign _ (by decide))
      · exact reach_derivation exponent readRight (by cases sign.op <;> decide)
          (follows.tighten (by decide))
  | _, .ofPrimary primary, f, level, rest, read, reached, follows =>
      reach_derivation primary read (Nat.zero_le _) (follows.tighten (by decide))
  | _, .number literal numeric, f, level, rest, read, reached, follows => by
      obtain ⟨value, known, rfl⟩ := Option.map_eq_some_iff.1 read
      rw [Derivation.yield, List.singleton_append, reach, outcome_operand_of_not_minus,
        outcome_primary_number numeric, known]
      · rfl
      · rintro _ ⟨⟩
        rcases numeric with int | float <;> simp [*]
  | _, .name word, f, level, rest, read, reached, follows => by
      cases read
      rw [Derivation.yield, List.singleton_append, reach, outcome_operand_of_not_minus,
        outcome_primary_symbol word.is_kind follows.2]
      · rfl
      · rintro _ ⟨⟩
        rw [word.is_kind]
        decide
  | _, .group opening inner closing, f, level, rest, read, reached, follows => by
      obtain ⟨inside, readInner, rfl⟩ := Option.map_eq_some_iff.1 read
      obtain ⟨first, others, yields, filled, -⟩ := inner.begins
      have whole : reach stop .any (inner.yield ++ closing.token :: rest) =
          .ok (inside, closing.token :: rest) := by
        have follows := follows_word .expr closing rest rfl (by decide)
        rw [reach_derivation inner readInner (by decide) follows]
        exact outcome_climb_word stop .any inside closing rest rfl
      rw [Derivation.yield, List.cons_append, List.append_assoc, List.singleton_append, reach,
        outcome_operand_of_not_minus, outcome_primary_group opening.is_kind,
        outcome_group opening.is_kind, outcome_expression, whole]
      · dsimp only
        rw [if_pos closing.is_kind]
        rfl
      · rw [yields]
        rintro _ ⟨⟩
        exact filled
      · rintro _ ⟨⟩
        rw [opening.is_kind]
        decide
  | _, .emptyCall word opening closing, f, level, rest, read, reached, follows => by
      cases read
      simp only [Derivation.yield, List.cons_append, List.nil_append]
      rw [reach, outcome_operand_of_not_minus, outcome_primary_call word.is_kind opening.is_kind,
        outcome_callee_empty opening.is_kind closing.is_kind]
      · rfl
      · rintro _ ⟨⟩
        rw [word.is_kind]
        decide
  | _, .call word opening given closing, f, level, rest, read, reached, follows => by
      obtain ⟨row, readAll, rfl⟩ := Option.map_eq_some_iff.1 read
      obtain ⟨first, others, yields, filled⟩ := given.begins
      have whole := arguments_derivation given readAll opening.token.span closing rest
      rw [Derivation.yield, List.cons_append, List.cons_append, List.append_assoc,
        List.singleton_append, reach, outcome_operand_of_not_minus,
        outcome_primary_call word.is_kind opening.is_kind, outcome_callee opening.is_kind, whole]
      · rfl
      · rw [yields]
        rintro _ ⟨⟩
        exact filled
      · rintro _ ⟨⟩
        rw [word.is_kind]
        decide

theorem arguments_derivation :
    ∀ (given : Arguments) {row : List (Formula α)}, given.trees? = some row →
      ∀ (opening : Span) (closing : Word .closeParen) (rest : List Token),
        (arguments stop opening (given.yield ++ closing.token :: rest)).outcome =
          .ok ((row, closing.token.span), rest)
  | .last argument, row, read, opening, closing, rest => by
      obtain ⟨f, readFirst, rfl⟩ := Option.map_eq_some_iff.1 read
      have follows := follows_word .expr closing rest rfl (by decide)
      rw [Arguments.yield, outcome_arguments, outcome_expression,
        reach_derivation argument readFirst (by decide) follows,
        outcome_climb_word stop .any f closing rest rfl]
      dsimp only
      rw [if_pos closing.is_kind]
  | .more argument comma others, row, read, opening, closing, rest => by
      obtain ⟨f, readFirst, tail⟩ := Option.bind_eq_some_iff.1 read
      obtain ⟨fs, readRest, rfl⟩ := Option.map_eq_some_iff.1 tail
      have follows := follows_word .expr comma (others.yield ++ closing.token :: rest) rfl (by decide)
      rw [Arguments.yield, List.append_assoc, List.cons_append, outcome_arguments,
        outcome_expression, reach_derivation argument readFirst (by decide) follows,
        outcome_climb_word stop .any f comma _ rfl]
      dsimp only
      rw [if_neg (by rw [comma.is_kind]; decide), if_pos comma.is_kind,
        arguments_derivation others readRest opening closing rest]
      rfl

end

/-! ### Texts -/

/-- A text is read as a formula exactly if its significant tokens derive that formula. -/
theorem parse_eq_ok_iff_derives (text : String) (f : Formula α) :
    parse text = .ok f ↔ Derives .expr (significant (tokenize text)) f := by
  rw [parse_eq_ok_iff_outcome, outcome_expression]
  constructor
  · intro read
    obtain ⟨taken, whole, derives, -⟩ := reach_sound _ read
    rw [List.append_nil] at whole
    exact whole ▸ derives
  · rintro ⟨d, yields, read⟩
    have follows : Follows .expr [] := ⟨fits_nil _, by rintro _ ⟨⟩⟩
    have reading : reach (utf8Length text.toList) .any (d.yield ++ []) =
        (climb (utf8Length text.toList) .any f []).outcome :=
      reach_derivation d read (by decide) follows
    rw [List.append_nil, yields, outcome_climb_nil] at reading
    exact reading

/-- The reader of formulas is the grammar: a text is read exactly if its tokens without blanks are
    derived from the grammar and all numbers among them are in range, and then the formula is the tree of
    the only derivation that they have. -/
theorem parse_iff_derivation (text : String) :
    ((∃ f : Formula α, parse text = .ok f) ↔
      (∃ d : Derivation .expr, d.yield = significant (tokenize text)) ∧
        AllInRange α (significant (tokenize text))) ∧
    ∀ f : Formula α, parse text = .ok f →
      ∃ d : Derivation .expr, d.yield = significant (tokenize text) ∧ d.tree? = some f ∧
        ∀ other : Derivation .expr, other.yield = significant (tokenize text) → other = d := by
  constructor
  · constructor
    · rintro ⟨f, read⟩
      obtain ⟨d, yields, reads⟩ := (parse_eq_ok_iff_derives text f).1 read
      exact ⟨⟨d, yields⟩, yields ▸ d.exists_tree?_iff.1 ⟨f, reads⟩⟩
    · rintro ⟨⟨d, yields⟩, inRange⟩
      obtain ⟨f, reads⟩ := d.exists_tree?_iff.2 (yields ▸ inRange)
      exact ⟨f, (parse_eq_ok_iff_derives text f).2 ⟨d, yields, reads⟩⟩
  · intro f read
    obtain ⟨d, yields, reads⟩ := (parse_eq_ok_iff_derives text f).1 read
    refine ⟨d, yields, reads, fun other same => ?_⟩
    -- any other derivation is read as a formula as well, and the reader answers only one
    obtain ⟨f', reads'⟩ := other.exists_tree?_iff.2
      (same ▸ yields ▸ d.exists_tree?_iff.1 ⟨f, reads⟩)
    have read' := (parse_eq_ok_iff_derives text f').2 ⟨other, same, reads'⟩
    cases read.symm.trans read'
    exact other.eq_of_tree? d reads' reads (same.trans yields.symm)

/-- In `-x^y` the power binds tighter than the minus sign before it. -/
theorem parse_iff_derivation_negated_power :
    ∃ f : Formula Double, parse "-x^y" = .ok f ∧
      ∃ d : Derivation .expr, d.yield = significant (tokenize "-x^y") ∧ d.tree? = some f ∧
        ∀ other : Derivation .expr, other.yield = significant (tokenize "-x^y") → other = d := by
  have tokens : significant (tokenize "-x^y") =
      [⟨.minus, ⟨0, 1⟩, "-"⟩, ⟨.name, ⟨1, 2⟩, "x"⟩, ⟨.caret, ⟨2, 3⟩, "^"⟩, ⟨.name, ⟨3, 4⟩, "y"⟩] := by
    decide +kernel
  have derived : ∃ d : Derivation .expr, d.yield = significant (tokenize "-x^y") := by
    rw [tokens]
    exact ⟨.ofTerm (.ofUnary (.minus ⟨⟨.minus, ⟨0, 1⟩, "-"⟩, rfl⟩ (.ofPower
      (.raised (.name ⟨⟨.name, ⟨1, 2⟩, "x"⟩, rfl⟩) ⟨⟨.caret, ⟨2, 3⟩, "^"⟩, .pow, rfl, rfl⟩
        (.ofPower (.ofPrimary (.name ⟨⟨.name, ⟨3, 4⟩, "y"⟩, rfl⟩))))))), rfl⟩
  have inRange : AllInRange Double (significant (tokenize "-x^y")) := by
    rw [tokens]
    simp [AllInRange, Token.IsNumber]
  obtain ⟨f, read⟩ := (parse_iff_derivation "-x^y").1.2 ⟨derived, inRange⟩
  exact ⟨f, read, (parse_iff_derivation "-x^y").2 f read⟩

end Formula

end SymbolicCalculus
