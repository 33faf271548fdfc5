/-
Module: SymbolicCalculus.Proofs.Formula.Consumption
Layer: Proofs
Purpose: What a cursor does while a part of a formula is read. Reading comes to an end at every cursor,
  whatever the loops over operators and arguments do; if the part is found, the cursor stands right behind
  its last token, and the tokens it has passed are those of the part and no others, blanks apart. What is
  found depends on nothing but the tokens ahead. A climb adds tokens to a formula that is given; it leaves
  the cursor where it is exactly if it adds nothing.
Main exports: Formula.Extends, Formula.passed, Formula.Part, Formula.Part.Spells, Formula.Part.Consumes,
  Formula.Part.readAt_consumes
-/
import SymbolicCalculus.Proofs.Formula.Cursor

namespace SymbolicCalculus

namespace Formula

open Grammar

/-! ### The tokens between two cursors -/

/-- The significant tokens that the cursor passes on its way. -/
def passed (tokens : List Token) (cursor behind : Nat) : List Token :=
  significant ((tokens.drop cursor).take (behind - cursor))

variable {tokens : List Token} {cursor behind : Nat}

theorem passed_append_ahead (forward : cursor ≤ behind) :
    passed tokens cursor behind ++ ahead tokens behind = ahead tokens cursor := by
  have later : tokens.drop behind = (tokens.drop cursor).drop (behind - cursor) := by
    rw [List.drop_drop, Nat.add_sub_cancel' forward]
  rw [passed, ahead, later, significant, significant, ← List.filter_append, List.take_append_drop]
  rfl

theorem passed_self (tokens : List Token) (cursor : Nat) : passed tokens cursor cursor = [] := by
  rw [passed, Nat.sub_self, List.take_zero]
  rfl

/-- A token that is no blank is the last that the cursor passes when it steps over it. -/
theorem passed_succ {token : Token} (forward : cursor ≤ behind) (found : tokens[behind]? = some token)
    (kept : token.kind ≠ .blank) :
    passed tokens cursor (behind + 1) = passed tokens cursor behind ++ [token] := by
  have next : (tokens.drop cursor)[behind - cursor]? = some token := by
    rw [List.getElem?_drop, Nat.add_sub_cancel' forward, found]
  rw [passed, Nat.sub_add_comm forward, List.take_add_one, next, significant, List.filter_append]
  simp [passed, significant, kept]

/-- A cursor that has moved stands right behind the last of the tokens it has passed. -/
theorem Moves.last (moves : Moves tokens cursor behind) (gone : behind ≠ cursor) :
    ∃ last, tokens[behind - 1]? = some last ∧
      (passed tokens cursor behind).getLast? = some last := by
  cases moves with
  | stays => exact absurd rfl gone
  | @goes behind token forward found kept =>
    refine ⟨token, found, ?_⟩
    rw [passed_succ forward found kept, List.getLast?_concat]

/-! ### Formulas that are gone on with -/

section Extending

variable {α : Type} [Numeral α] {stop : Nat} {level : Precedence}

/-- The tokens to the right of a formula with which it becomes another one: signs of operators that bind
    at least as tightly as the level, each with the tokens of its right operand. -/
inductive Extends (level : Precedence) : Formula α → List Token → Formula α → Prop where
  | nothing {left : Formula α} : Extends level left [] left
  | applied {left right whole : Formula α} {sign : Token} {op : BinaryOp} {own others : List Token}
      (known : sign.kind.binaryOp? = some op) (tight : ¬ op.precedence < level)
      (operand : Derives (.reached op.rightLevel) own right)
      (goesOn : Extends level (.binary op sign.span left right) others whole) :
      Extends level left (sign :: (own ++ others)) whole

/-- Each of the tokens makes the formula larger. -/
theorem Extends.tokenCount_eq {left whole : Formula α} {taken : List Token}
    (extends_ : Extends level left taken whole) :
    tokenCount whole = tokenCount left + taken.length := by
  induction extends_ with
  | nothing => rfl
  | applied known tight operand goesOn ih =>
    obtain ⟨d, rfl, reads⟩ := operand
    have right := d.length_yield reads
    rw [ih, tokenCount, List.length_cons, List.length_append, right]
    omega

theorem Extends.eq_left_iff {left whole : Formula α} {taken : List Token}
    (extends_ : Extends level left taken whole) : taken = [] ↔ left = whole := by
  constructor
  · rintro rfl
    cases extends_
    rfl
  · rintro rfl
    have count := extends_.tokenCount_eq
    exact List.eq_nil_of_length_eq_zero (by omega)

/-- A climb goes on with the formula on its left, whatever that is. -/
theorem climb_extends {left whole : Formula α} {row rest : List Token}
    (done : (climb stop level left row).outcome = .ok (whole, rest)) :
    ∃ taken, row = taken ++ rest ∧ Extends level left taken whole := by
  induction len : row.length using Nat.strongRecOn generalizing row left with
  | ind n ih =>
    cases row with
    | nil =>
      rw [outcome_climb_nil] at done
      cases done
      exact ⟨[], rfl, .nothing⟩
    | cons sign inside =>
      rcases loose_or_tight sign level with loose | ⟨op, known, tight⟩
      · rw [outcome_climb_stops loose] at done
        cases done
        exact ⟨[], rfl, .nothing⟩
      · rw [outcome_climb_cons known tight] at done
        obtain ⟨⟨right, after⟩, readRight, goesOn⟩ := bind_eq_ok_iff.1 done
        obtain ⟨own, rfl, derives, -⟩ := reach_sound inside readRight
        have shorter : after.length < n := by
          rw [← len, List.length_cons, List.length_append]
          omega
        obtain ⟨others, rfl, more⟩ := ih after.length shorter goesOn rfl
        exact ⟨sign :: (own ++ others), by simp, .applied known tight derives more⟩

end Extending

/-! ### Parts -/

/-- The parts of formulas that can be read by themselves. A climb goes on with a formula that is given. -/
inductive Part (α : Type) where
  | expression | operand | primary | group | invocation | literal
  | climb (level : Precedence) (left : Formula α)

namespace Part

variable {α : Type} [Numeral α]

/-- Reading the part at a cursor, down to some depth of calls. -/
def readAt : Part α → Nat → List Token → Nat → Option (Attempt (Formula α))
  | .expression => expressionAt
  | .operand => operandAt
  | .primary => primaryAt
  | .group => groupAt
  | .invocation => invocationAt
  | .literal => fun _ tokens cursor => some (literalAt tokens cursor)
  | .climb level left => fun depth => climbAt depth level left

/-- What the reader of the part answers on a row of significant tokens. -/
def outcome (stop : Nat) : Part α → List Token → Outcome (Formula α)
  | .expression, tokens => (Formula.expression stop tokens).outcome
  | .operand, tokens => (Formula.operand stop tokens).outcome
  | .primary, tokens => (Formula.primary stop tokens).outcome
  | .group, tokens => (Formula.group stop tokens).outcome
  | .invocation, tokens => (Formula.invocation stop tokens).outcome
  | .literal, tokens => (Formula.literal stop tokens).outcome
  | .climb level left, tokens => (Formula.climb stop level left tokens).outcome

/-- The formula that is there before any token is read. -/
def given? : Part α → Option (Formula α)
  | .climb _ left => some left
  | _ => none

/-- The tokens are those of the formula, read as the part; to a formula that is given, they are those
    that it is gone on with. -/
def Spells : Part α → List Token → Formula α → Prop
  | .expression => Derives .expr
  | .operand => Derives .unary
  | .primary => Derives .primary
  | .group => fun taken f => Derives .primary taken f ∧ ∃ inner place, f = .paren inner place
  | .invocation => fun taken f =>
      Derives .primary taken f ∧ ∃ name place row parens, f = .call name place row parens
  | .literal => fun taken f =>
      Derives .primary taken f ∧
        ((∃ value place, f = .number value place) ∨ ∃ name place, f = .symbol name place)
  | .climb level left => Extends level left

/-- At every cursor, the part is read as the reader reads the tokens ahead. -/
theorem readAt_agrees (part : Part α) (stop : Nat) (tokens : List Token) (cursor : Nat) :
    Agrees stop tokens cursor (part.readAt · tokens cursor) (part.outcome stop (ahead tokens cursor)) := by
  have reads : ReadsBelow α stop tokens ((ahead tokens cursor).length + 1) :=
    fun further _ => reads_ahead stop tokens further
  have within := Nat.lt_succ_self (ahead tokens cursor).length
  cases part with
  | expression => exact expressionAt_agrees reads within
  | operand => exact operandAt_agrees reads (Nat.le_of_lt within)
  | primary => exact primaryAt_agrees reads (Nat.le_of_lt within)
  | group => exact groupAt_agrees reads (Nat.le_of_lt within)
  | invocation => exact invocationAt_agrees reads (Nat.le_of_lt within)
  | literal => exact literalAt_agrees stop tokens cursor
  | climb level left => exact climbAt_agrees reads (Nat.le_of_lt within)

/-! ### What the readers take -/

section Sound

variable {stop : Nat} {row rest : List Token} {f : Formula α}

theorem group_sound (done : (Formula.group stop row).outcome = .ok (f, rest)) :
    ∃ taken, row = taken ++ rest ∧ Part.group.Spells taken f := by
  cases row with
  | nil =>
    rw [Formula.group] at done
    cases done
  | cons opening inside =>
    by_cases opens : opening.kind = .openParen
    · have whole : (Formula.primary stop (opening :: inside)).outcome = .ok (f, rest) := by
        rw [outcome_primary_group opens, done]
        rfl
      obtain ⟨taken, split_, derives⟩ := primary_sound (fun shorter _ => reach_sound shorter) whole
      refine ⟨taken, split_, derives, ?_⟩
      by_cases filled : ∀ next ∈ inside.head?, next.kind ≠ .closeParen
      · rw [outcome_group opens filled] at done
        split at done
        · cases done
        · cases done
        · split at done
          · cases done
            exact ⟨_, _, rfl⟩
          · cases done
      · obtain ⟨closing, left, rfl, closes⟩ := exists_next filled
        rw [outcome_group_empty opens closes] at done
        cases done
    · rw [Formula.group, if_neg opens] at done
      cases done

/-- What is read behind a name is a call of it. -/
theorem callee_sound {word : Token} {inside : List Token} (name : word.kind = .name)
    (done : (callee stop word.lexeme word.span inside).outcome = .ok (f, rest)) :
    ∃ taken, word :: inside = taken ++ rest ∧ Part.invocation.Spells taken f := by
  by_cases alone : ∀ next ∈ inside.head?, next.kind ≠ .openParen
  · cases inside with
    | nil =>
      rw [callee] at done
      cases done
    | cons next others =>
      rw [callee, if_neg (alone next rfl)] at done
      cases done
  · obtain ⟨opening, others, rfl, opens⟩ := exists_next alone
    have whole := (outcome_primary_call name opens).trans done
    obtain ⟨taken, split_, derives⟩ := primary_sound (fun shorter _ => reach_sound shorter) whole
    refine ⟨taken, split_, derives, ?_⟩
    by_cases filled : ∀ next ∈ others.head?, next.kind ≠ .closeParen
    · rw [outcome_callee opens filled] at done
      obtain ⟨given, -, same⟩ := map_eq_ok_iff.1 done
      cases same
      exact ⟨_, _, _, _, rfl⟩
    · obtain ⟨closing, left, rfl, closes⟩ := exists_next filled
      rw [outcome_callee_empty opens closes] at done
      cases done
      exact ⟨_, _, _, _, rfl⟩

theorem invocation_sound (done : (Formula.invocation stop row).outcome = .ok (f, rest)) :
    ∃ taken, row = taken ++ rest ∧ Part.invocation.Spells taken f := by
  cases row with
  | nil => cases done
  | cons word inside =>
    by_cases named : word.kind = .name
    · rw [outcome_invocation named] at done
      exact callee_sound named done
    · rw [Formula.invocation, Formula.name, token, if_neg named] at done
      cases done

theorem literal_sound (done : (Formula.literal stop row).outcome = .ok (f, rest)) :
    ∃ taken, row = taken ++ rest ∧ Part.literal.Spells taken f := by
  cases row with
  | nil => cases done
  | cons found inside =>
    by_cases number : found.IsNumber
    · rw [outcome_literal_number number] at done
      split at done
      · next value read =>
        cases done
        exact ⟨[found], rfl, .number number read, .inl ⟨_, _, rfl⟩⟩
      · cases done
    · obtain ⟨kind, span, lexeme⟩ := found
      cases kind
      case name =>
        cases done
        exact ⟨[_], rfl, .symbol rfl, .inr ⟨_, _, rfl⟩⟩
      case int => exact absurd (.inl rfl) number
      case float => exact absurd (.inr rfl) number
      all_goals cases done

/-- Whatever a reader takes spells what it answers. -/
theorem outcome_sound (part : Part α) (done : part.outcome stop row = .ok (f, rest)) :
    ∃ taken, row = taken ++ rest ∧ part.Spells taken f := by
  cases part with
  | expression =>
    rw [outcome, outcome_expression] at done
    obtain ⟨taken, split_, derives, -⟩ := reach_sound row done
    exact ⟨taken, split_, derives⟩
  | operand =>
    obtain ⟨c, taken, -, split_, derives, -, bound⟩ :=
      operand_sound (fun shorter _ => reach_sound shorter) done
    exact ⟨taken, split_, derives.widen bound⟩
  | primary =>
    cases row with
    | nil =>
      rw [outcome, Formula.primary] at done
      cases done
    | cons first inside => exact primary_sound (fun shorter _ => reach_sound shorter) done
  | group => exact group_sound done
  | invocation => exact invocation_sound done
  | literal => exact literal_sound done
  | climb level left => exact climb_extends done

end Sound

/-! ### The discipline of the cursor -/

/-- The part was read as the formula, and the cursor has gone from one place to another. -/
structure Consumes (part : Part α) (tokens : List Token) (cursor : Nat) (f : Formula α)
    (behind : Nat) : Prop where
  /-- The tokens that were passed are those of the formula, in their order. -/
  spells : part.Spells (passed tokens cursor behind) f
  /-- The cursor does not go back. -/
  forward : cursor ≤ behind
  /-- The cursor stays where it is exactly if the formula was given. -/
  stays_iff : behind = cursor ↔ part.given? = some f
  /-- The token right before the cursor is the last one of the formula. -/
  last : behind ≠ cursor → ∃ last, tokens[behind - 1]? = some last ∧
    (passed tokens cursor behind).getLast? = some last

theorem Derives.ne_nil {c : Category} {tokens : List Token} {f : Formula α}
    (derives : Derives c tokens f) : tokens ≠ [] := by
  obtain ⟨d, rfl, -⟩ := derives
  obtain ⟨first, others, yields, -⟩ := d.begins
  rw [yields]
  exact List.cons_ne_nil first others

/-- A part has at least one token, unless the formula was given. -/
theorem Spells.eq_nil_iff {part : Part α} {taken : List Token} {f : Formula α}
    (spells : part.Spells taken f) : taken = [] ↔ part.given? = some f := by
  cases part with
  | climb level left => exact (Extends.eq_left_iff spells).trans (Option.some_inj.symm)
  | expression | operand | primary => simpa [given?] using Derives.ne_nil spells
  | group | invocation | literal => simpa [given?] using Derives.ne_nil spells.1

theorem consumes_of_readAt {part : Part α} {tokens : List Token} {depth cursor behind : Nat}
    {f : Formula α} (done : part.readAt depth tokens cursor = some (.done f behind)) :
    part.Consumes tokens cursor f behind := by
  obtain ⟨read, moves⟩ := (part.readAt_agrees 0 tokens cursor).of_done done
  obtain ⟨taken, split_, spells⟩ := part.outcome_sound read
  have all : passed tokens cursor behind = taken :=
    List.append_cancel_right ((passed_append_ahead moves.le).trans split_)
  have none_passed : behind = cursor ↔ taken = [] := by
    rw [← all]
    constructor
    · rintro rfl
      exact passed_self tokens behind
    · intro none_
      by_contra gone
      obtain ⟨last, -, ends⟩ := moves.last gone
      rw [none_] at ends
      cases ends
  exact ⟨all ▸ spells, moves.le, none_passed.trans spells.eq_nil_iff, moves.last⟩

/-- Every part is read to an end at every cursor. If it is found, the cursor stands right behind the last
    of its tokens and has passed those and no others but blanks; and what is found at another cursor in
    another row with the same tokens ahead is the same. -/
theorem readAt_consumes (part : Part α) (tokens : List Token) (cursor : Nat) :
    ∃ answer, Settles (part.readAt · tokens cursor) answer ∧
      (∀ f behind, answer = .done f behind → part.Consumes tokens cursor f behind) ∧
      ∀ tokens' cursor', ahead tokens' cursor' = ahead tokens cursor →
        ∃ answer', Settles (part.readAt · tokens' cursor') answer' ∧
          answer'.value? = answer.value? := by
  obtain ⟨answer, run, value⟩ := (part.readAt_agrees 0 tokens cursor).exists_value
  refine ⟨answer, run, ?_, ?_⟩
  · rintro f behind rfl
    obtain ⟨enough, comes⟩ := run.ends
    exact consumes_of_readAt (comes enough (Nat.le_refl enough))
  · intro tokens' cursor' same
    obtain ⟨answer', run', value'⟩ := (part.readAt_agrees 0 tokens' cursor').exists_value
    rw [same, ← value] at value'
    exact ⟨answer', run', value'⟩

/-- The blank behind the closing parenthesis of `(x )` is not passed, the one before it is. -/
example :
    Part.group.readAt 5 [⟨.openParen, ⟨0, 1⟩, "("⟩, ⟨.name, ⟨1, 2⟩, "x"⟩, ⟨.blank, ⟨2, 3⟩, " "⟩,
      ⟨.closeParen, ⟨3, 4⟩, ")"⟩, ⟨.blank, ⟨4, 5⟩, " "⟩] 0 =
      some (.done (.paren (.symbol "x" ⟨1, 2⟩) ⟨0, 4⟩ : Formula Double) 4) := by cbv

/-- A sum is not gone on with at the level of products. -/
example :
    (Part.climb .factor (.symbol "y" ⟨0, 1⟩ : Formula Double)).readAt 1
      [⟨.name, ⟨0, 1⟩, "y"⟩, ⟨.plus, ⟨1, 2⟩, "+"⟩, ⟨.name, ⟨2, 3⟩, "x"⟩] 1 =
      some (.done (.symbol "y" ⟨0, 1⟩) 1) := by cbv

end Part

end Formula

end SymbolicCalculus
