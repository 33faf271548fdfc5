/-
Module: SymbolicCalculus.Proofs.Formula.Parentheses
Layer: Proofs
Purpose: Which parenthesis is blamed for having no partner. Partners are defined on rows of tokens, without
  regard to formulas: two parentheses belong together if all parentheses between them do. What a reader has
  taken is nested, so an opening parenthesis behind which the text ends has no partner, nor has a closing
  one that is left over behind a formula. Only where an operand is missing the readers blame a closing
  parenthesis without asking what was open: behind an operator or a comma it may well have its partner.
Main exports: Nested, ClosedIn, OpenedIn, Nested.not_closedIn, Nested.not_openedIn,
  Grammar.Derivation.nested, Blamed, Formula.verdict_blamed, Formula.blamed_parenthesis,
  Formula.closing_blamed_with_partner
-/
import SymbolicCalculus.Proofs.Formula.EarliestFault

namespace SymbolicCalculus

/-! ### Partners -/

/-- Every parenthesis in the row has its partner in it. -/
inductive Nested : List Token → Prop where
  | nil : Nested []
  | plain {token : Token} {row : List Token} (noOpening : token.kind ≠ .openParen)
      (noClosing : token.kind ≠ .closeParen) (rest : Nested row) : Nested (token :: row)
  | pair {opening closing : Token} {inside row : List Token} (opens : opening.kind = .openParen)
      (closes : closing.kind = .closeParen) (inner : Nested inside) (rest : Nested row) :
      Nested (opening :: (inside ++ closing :: row))

/-- An opening parenthesis has its partner among the tokens behind it. -/
def ClosedIn (after : List Token) : Prop :=
  ∃ inside closing rest, after = inside ++ closing :: rest ∧ closing.kind = .closeParen ∧ Nested inside

/-- A closing parenthesis has its partner among the tokens before it. -/
def OpenedIn (before : List Token) : Prop :=
  ∃ front opening inside, before = front ++ opening :: inside ∧ opening.kind = .openParen ∧ Nested inside

/-- What a token adds to the number of open parentheses. -/
def Token.weight (token : Token) : Int :=
  match token.kind with
  | .openParen => 1
  | .closeParen => -1
  | _ => 0

/-- How many more parentheses are opened in the row than closed. -/
def excess (row : List Token) : Int := (row.map Token.weight).sum

@[simp] theorem excess_nil : excess [] = 0 := rfl

@[simp] theorem excess_cons (token : Token) (row : List Token) :
    excess (token :: row) = token.weight + excess row :=
  List.sum_cons

@[simp] theorem excess_append (front back : List Token) :
    excess (front ++ back) = excess front + excess back := by
  rw [excess, List.map_append, List.sum_append, excess, excess]

theorem Token.weight_opening {token : Token} (opens : token.kind = .openParen) : token.weight = 1 := by
  rw [weight, opens]

theorem Token.weight_closing {token : Token} (closes : token.kind = .closeParen) :
    token.weight = -1 := by
  rw [weight, closes]

theorem Token.weight_plain {token : Token} (noOpening : token.kind ≠ .openParen)
    (noClosing : token.kind ≠ .closeParen) : token.weight = 0 := by
  unfold weight
  split
  · contradiction
  · contradiction
  · rfl

namespace Nested

variable {row front back : List Token}

theorem append (first : Nested front) (second : Nested back) : Nested (front ++ back) := by
  induction first with
  | nil => exact second
  | plain noOpening noClosing _ rest => exact .plain noOpening noClosing rest
  | pair opens closes inner _ _ rest =>
    rw [List.cons_append, List.append_assoc, List.cons_append]
    exact .pair opens closes inner rest

theorem excess_eq_zero (nested : Nested row) : excess row = 0 := by
  induction nested with
  | nil => rfl
  | plain noOpening noClosing _ rest => simp [Token.weight_plain noOpening noClosing, rest]
  | pair opens closes _ _ inner rest =>
    simp [Token.weight_opening opens, Token.weight_closing closes, inner, rest]

/-- Up to any place in the row, no more parentheses are closed than opened. -/
theorem excess_nonneg (nested : Nested (front ++ back)) : 0 ≤ excess front := by
  generalize whole : front ++ back = row at nested
  induction nested generalizing front back with
  | nil => rw [(List.append_eq_nil_iff.1 whole).1, excess_nil]
  | plain noOpening noClosing _ rest =>
    rcases List.append_eq_cons_iff.1 whole with ⟨rfl, -⟩ | ⟨front', rfl, whole'⟩
    · rw [excess_nil]
    · rw [excess_cons, Token.weight_plain noOpening noClosing, Int.zero_add]
      exact rest whole'.symm
  | @pair opening closing inside row opens closes nested _ inner rest =>
    rcases List.append_eq_cons_iff.1 whole with ⟨rfl, -⟩ | ⟨front', rfl, whole'⟩
    · rw [excess_nil]
    rw [excess_cons, Token.weight_opening opens]
    rcases List.append_eq_append_iff.1 whole' with ⟨more, rfl, behind⟩ | ⟨left, rfl, -⟩
    · -- the place lies behind the tokens inside the pair
      rw [excess_append, nested.excess_eq_zero]
      rcases List.append_eq_cons_iff.1 behind.symm with ⟨rfl, -⟩ | ⟨more', rfl, whole''⟩
      · simp
      · rw [excess_cons, Token.weight_closing closes]
        have := rest whole''.symm
        omega
    · have := inner rfl
      omega

/-- Behind an opening parenthesis, nested tokens do not close it. -/
theorem not_closedIn (nested : Nested row) : ¬ClosedIn row := by
  rintro ⟨inside, closing, rest, rfl, closes, inner⟩
  rw [← List.singleton_append, ← List.append_assoc] at nested
  have open_ := nested.excess_nonneg
  rw [excess_append, inner.excess_eq_zero, excess_cons, Token.weight_closing closes] at open_
  exact absurd open_ (by decide)

/-- Before a closing parenthesis, nested tokens do not open it. -/
theorem not_openedIn (nested : Nested row) : ¬OpenedIn row := by
  rintro ⟨front, opening, inside, rfl, opens, inner⟩
  have balanced := nested.excess_eq_zero
  have open_ := nested.excess_nonneg
  rw [excess_append, excess_cons, Token.weight_opening opens, inner.excess_eq_zero] at balanced
  omega

end Nested

/-! ### What is derived is nested -/

/-- Behind the token stands an operand: it is an operator or separates arguments. -/
def Token.AwaitsOperand (token : Token) : Prop :=
  (∃ op, token.kind.binaryOp? = some op) ∨ token.kind = .comma

namespace Token.AwaitsOperand

variable {sign : Token}

theorem of_minus (minus : sign.kind = .minus) : sign.AwaitsOperand := .inl ⟨.sub, by rw [minus]; rfl⟩

theorem kind_ne (awaits : sign.AwaitsOperand) : sign.kind ≠ .openParen ∧ sign.kind ≠ .closeParen := by
  rcases awaits with ⟨op, known⟩ | comma
  · constructor
    · intro opens
      rw [opens] at known
      cases known
    · intro closes
      rw [closes] at known
      cases known
  · rw [comma]
    decide

end Token.AwaitsOperand

theorem Nested.operand {sign : Token} {row : List Token} (awaits : sign.AwaitsOperand)
    (nested : Nested row) : Nested (sign :: row) :=
  .plain awaits.kind_ne.1 awaits.kind_ne.2 nested

namespace Grammar

theorem Sign.awaitsOperand {level : Precedence} (sign : Sign level) : sign.token.AwaitsOperand :=
  .inl ⟨sign.op, sign.known⟩

theorem Word.nested (word : Word .name) {row : List Token} (rest : Nested row) :
    Nested (word.token :: row) :=
  .plain (by simp [word.is_kind]) (by simp [word.is_kind]) rest

mutual

/-- A derivation yields parentheses only in pairs. -/
theorem Derivation.nested : ∀ {c : Category} (d : Derivation c), Nested d.yield
  | _, .sum left sign right => left.nested.append (right.nested.operand sign.awaitsOperand)
  | _, .ofTerm term => term.nested
  | _, .product left sign right => left.nested.append (right.nested.operand sign.awaitsOperand)
  | _, .ofUnary unary => unary.nested
  | _, .minus sign operand => operand.nested.operand (.of_minus sign.is_kind)
  | _, .ofPower power => power.nested
  | _, .raised base sign exponent =>
      base.nested.append (exponent.nested.operand sign.awaitsOperand)
  | _, .ofPrimary primary => primary.nested
  | _, .number literal numeric => by
      rcases numeric with int | float
      · exact .plain (by simp [int]) (by simp [int]) .nil
      · exact .plain (by simp [float]) (by simp [float]) .nil
  | _, .name word => word.nested .nil
  | _, .group opening inner closing => .pair opening.is_kind closing.is_kind inner.nested .nil
  | _, .emptyCall word opening closing =>
      word.nested (.pair opening.is_kind closing.is_kind .nil .nil)
  | _, .call word opening given closing =>
      word.nested (.pair opening.is_kind closing.is_kind given.nested .nil)

theorem Arguments.nested : ∀ given : Arguments, Nested given.yield
  | .last argument => argument.nested
  | .more argument comma others =>
      argument.nested.append (others.nested.operand (.inr comma.is_kind))

end

end Grammar

/-! ### What is blamed -/

/-- A parenthesis that is blamed in a row: an opening one behind which all parentheses have partners; or a
    closing one with which the row begins, or which stands where an operand has to be. -/
inductive Blamed : List Token → Span → Bool → Prop where
  | unclosed {before after : List Token} {opening : Token} (opens : opening.kind = .openParen)
      (nested : Nested after) : Blamed (before ++ opening :: after) opening.span true
  | first {after : List Token} {closing : Token} (closes : closing.kind = .closeParen) :
      Blamed (closing :: after) closing.span false
  | behind {before after : List Token} {sign closing : Token} (awaits : sign.AwaitsOperand)
      (closes : closing.kind = .closeParen) :
      Blamed (before ++ sign :: closing :: after) closing.span false

namespace Blamed

variable {row : List Token} {span : Span} {opening : Bool}

/-- What is blamed in the end of a row is blamed in the row, if the end does not begin with it. -/
theorem prepend (blamed : Blamed row span opening)
    (filled : ∀ next ∈ row.head?, next.kind ≠ .closeParen) (front : List Token) :
    Blamed (front ++ row) span opening := by
  cases blamed with
  | unclosed opens nested =>
    rw [← List.append_assoc]
    exact .unclosed opens nested
  | first closes => exact absurd closes (filled _ rfl)
  | behind awaits closes =>
    rw [← List.append_assoc]
    exact .behind awaits closes

/-- What is blamed in a row that stands for an operand is blamed behind an operator too. -/
theorem operand {sign : Token} (blamed : Blamed row span opening) (awaits : sign.AwaitsOperand)
    (front : List Token) : Blamed (front ++ sign :: row) span opening := by
  cases blamed with
  | @unclosed before _ _ opens nested =>
    rw [← List.cons_append, ← List.append_assoc]
    exact .unclosed opens nested
  | first closes => exact .behind awaits closes
  | @behind before _ _ _ awaits closes =>
    rw [← List.cons_append, ← List.append_assoc]
    exact .behind awaits closes

end Blamed

namespace Formula

variable {α : Type} [Numeral α] {stop : Nat} {tokens rest : List Token} {span : Span} {opening : Bool}

/-- What the readers take is nested. -/
theorem exists_nested_of_verdict {level : Precedence} {f : Formula α}
    (read : verdict stop level tokens = .ok (f, rest)) :
    ∃ taken, tokens = taken ++ rest ∧ Nested taken := by
  obtain ⟨taken, split_, ⟨d, rfl, -⟩, -⟩ := reach_sound tokens (verdict_eq_ok_iff.1 read)
  exact ⟨_, split_, d.nested⟩

/-- Whatever the level, a parenthesis that the row fails at is blamed in it. -/
def Blames (α : Type) [Numeral α] (stop : Nat) (tokens : List Token) : Prop :=
  ∀ {level : Precedence} {span : Span} {opening : Bool},
    (verdict stop level tokens : Verdict (Formula α)) = .error ⟨span, .unclosedParenthesis opening⟩ →
      Blamed tokens span opening

/-- Among arguments a parenthesis is blamed, or the text ends before they are closed. -/
theorem arguments_blamed {place : Span}
    (reads : ∀ shorter : List Token, shorter.length ≤ tokens.length → Blames α stop shorter)
    (failed : (argumentsVerdict stop place tokens : Verdict (List (Formula α) × Span)) =
      .error ⟨span, .unclosedParenthesis opening⟩) :
    (span = place ∧ opening = true ∧ Nested tokens) ∨ Blamed tokens span opening := by
  induction len : tokens.length using Nat.strongRecOn generalizing tokens with
  | ind n ih =>
    rw [verdict_arguments, Verdict.andThen_eq_error_iff] at failed
    rcases failed with failed | ⟨first, left, read, failed⟩
    · exact .inr (reads tokens (Nat.le_refl _) failed)
    obtain ⟨taken, rfl, nested⟩ := exists_nested_of_verdict read
    cases left with
    | nil =>
      cases failed
      exact .inl ⟨rfl, rfl, by rwa [List.append_nil]⟩
    | cons found rest =>
      rw [afterArgument] at failed
      split_ifs at failed with closes separates
      · rcases Verdict.andThen_eq_error_iff.1 failed with failed | ⟨_, _, -, failed⟩
        · have fewer : rest.length < n := by
            rw [← len, List.length_append, List.length_cons]
            omega
          have comma : found.AwaitsOperand := .inr separates
          rcases ih rest.length fewer (fun row bound => reads row (by omega)) failed rfl with
            ⟨rfl, rfl, others⟩ | blamed
          · exact .inl ⟨rfl, rfl, nested.append (others.operand comma)⟩
          · exact .inr (blamed.operand comma taken)
        · cases failed
      · cases failed

theorem operand_blamed
    (reads : ∀ shorter : List Token, shorter.length < tokens.length → Blames α stop shorter)
    (failed : (operandVerdict stop tokens : Verdict (Formula α)) =
      .error ⟨span, .unclosedParenthesis opening⟩) : Blamed tokens span opening := by
  cases tokens using front_cases with
  | nil =>
    rw [verdict_operand_nil] at failed
    cases failed
  | minus sign rest minus =>
    rw [verdict_operand_minus minus, Verdict.andThen_eq_error_iff] at failed
    rcases failed with failed | ⟨_, _, -, failed⟩
    · exact (reads rest (by simp) failed).operand (.of_minus minus) []
    · cases failed
  | number literal rest number =>
    rw [verdict_operand_number number] at failed
    split at failed <;> cases failed
  | emptyGroup opening closing rest opens closes =>
    rw [verdict_operand_emptyGroup opens closes] at failed
    cases failed
  | group opening inside opens filled =>
    rw [verdict_operand_group opens filled, Verdict.andThen_eq_error_iff] at failed
    rcases failed with failed | ⟨inner, left, read, failed⟩
    · exact (reads inside (by simp) failed).prepend filled [opening]
    · obtain ⟨taken, rfl, nested⟩ := exists_nested_of_verdict read
      cases left with
      | nil =>
        cases failed
        rw [List.append_nil]
        change Blamed ([] ++ opening :: taken) _ _
        exact .unclosed opens nested
      | cons closing rest =>
        rw [closeGroup] at failed
        split_ifs at failed
        cases failed
  | symbol word rest name alone =>
    rw [verdict_operand_symbol name alone] at failed
    cases failed
  | emptyCall word opening closing rest name opens closes =>
    rw [verdict_operand_emptyCall name opens closes] at failed
    cases failed
  | call word opening inside name opens filled =>
    rw [verdict_operand_call name opens filled, Verdict.andThen_eq_error_iff] at failed
    rcases failed with failed | ⟨_, _, -, failed⟩
    · have shorter (row : List Token) (bound : row.length ≤ inside.length) : Blames α stop row :=
        reads row (by simp only [List.length_cons]; omega)
      rcases arguments_blamed shorter failed with ⟨rfl, rfl, nested⟩ | blamed
      · change Blamed ([word] ++ opening :: inside) _ _
        exact .unclosed opens nested
      · exact blamed.prepend filled [word, opening]
    · cases failed
  | other found rest other =>
    rw [verdict_operand_other other] at failed
    split_ifs at failed with closes
    · cases failed
      exact .first closes
    · cases failed

/-- A climb takes up nothing but operators, so a closing parenthesis that it fails at stands behind one. -/
theorem climb_blamed {level : Precedence} {left : Formula α}
    (reads : ∀ shorter : List Token, shorter.length < tokens.length → Blames α stop shorter)
    (failed : climbVerdict stop level left tokens = .error ⟨span, .unclosedParenthesis opening⟩)
    (consumed : List Token) : Blamed (consumed ++ tokens) span opening := by
  induction len : tokens.length using Nat.strongRecOn generalizing tokens left consumed with
  | ind n ih =>
    cases tokens with
    | nil =>
      rw [verdict_climb_nil] at failed
      cases failed
    | cons sign inside =>
      rcases loose_or_tight sign level with loose | ⟨op, known, tight⟩
      · rw [verdict_climb_stops loose] at failed
        cases failed
      · rw [verdict_climb_cons known tight, Verdict.andThen_eq_error_iff] at failed
        rcases failed with failed | ⟨right, behind, read, failed⟩
        · exact (reads inside (by simp) failed).operand (.inl ⟨op, known⟩) consumed
        · obtain ⟨taken, rfl, -⟩ := exists_nested_of_verdict read
          have fewer : behind.length < n := by
            rw [← len, List.length_cons, List.length_append]
            omega
          have goesOn := ih behind.length fewer (fun row bound => reads row (by omega)) failed
            (consumed ++ sign :: taken) rfl
          simpa only [List.append_assoc, List.cons_append] using goesOn

theorem verdict_blamed (tokens : List Token) : Blames α stop tokens := by
  induction len : tokens.length using Nat.strongRecOn generalizing tokens with
  | ind n ih =>
    intro level span opening failed
    have reads : ∀ shorter : List Token, shorter.length < tokens.length → Blames α stop shorter := by
      intro shorter bound
      exact ih shorter.length (by rw [← len]; exact bound) shorter rfl
    rw [verdict_eq, Verdict.andThen_eq_error_iff] at failed
    rcases failed with failed | ⟨first, rest, read, failed⟩
    · exact operand_blamed reads failed
    · have sound : ∀ shorter : List Token, shorter.length < tokens.length → ReadsSoundly α stop shorter :=
        fun shorter _ => reach_sound shorter
      obtain ⟨c, taken, -, rfl, -⟩ := operand_sound sound (mapError_eq_ok_iff.1 read)
      exact climb_blamed (fun row bound => reads row (by simp only [List.length_append]; omega)) failed taken

/-! ### Texts -/

/-- A parenthesis that is blamed for having no partner has none in the text, with one exception. Let a text
    be rejected for such a parenthesis. The place of the failure is that of one token, an opening or a
    closing parenthesis as the failure says. An opening one is not closed by any that stands behind it. A
    closing one is not opened by any that stands before it, unless an operator or a comma stands right
    before it, the operand of which is missing. -/
theorem blamed_parenthesis {text : String}
    (failed : (parse text : Except _ (Formula α)) = .error ⟨span, .unclosedParenthesis opening⟩) :
    ∃ before token after, significant (tokenize text) = before ++ token :: after ∧ token.span = span ∧
      token.kind = (if opening then .openParen else .closeParen) ∧
      (opening = true → ¬ClosedIn after) ∧
      (opening = false → OpenedIn before →
        ∃ front sign, before = front ++ [sign] ∧ sign.AwaitsOperand) := by
  rw [parse_eq_ofTokens] at failed
  generalize significant (tokenize text) = tokens at failed ⊢
  have filled : tokens ≠ [] := by
    rintro rfl
    cases failed
  rw [ofTokens_eq_error_iff filled, Verdict.andThen_eq_error_iff] at failed
  rcases failed with failed | ⟨whole, rest, read, failed⟩
  · cases verdict_blamed tokens failed with
    | unclosed opens nested =>
      exact ⟨_, _, _, rfl, rfl, opens, fun _ => nested.not_closedIn, nofun⟩
    | first closes =>
      exact ⟨[], _, _, rfl, rfl, closes, nofun, fun _ opened => absurd opened Nested.nil.not_openedIn⟩
    | @behind before _ sign _ awaits closes =>
      exact ⟨before ++ [sign], _, _, List.append_cons .., rfl, closes, nofun,
        fun _ _ => ⟨before, sign, rfl, awaits⟩⟩
  · obtain ⟨taken, rfl, nested⟩ := exists_nested_of_verdict read
    cases rest with
    | nil => cases failed
    | cons next rest =>
      rw [ending] at failed
      split_ifs at failed with closes
      · cases failed
        exact ⟨taken, next, rest, rfl, rfl, closes, nofun,
          fun _ opened => absurd opened nested.not_openedIn⟩
      · cases failed

/-- In `f((x)` the parenthesis of the call is not closed: the one that stands behind closes another. -/
theorem blamed_parenthesis_call :
    (parse "f((x)" : Except _ (Formula Double)) = .error ⟨⟨1, 2⟩, .unclosedParenthesis true⟩ ∧
      ∃ before token after, significant (tokenize "f((x)") = before ++ token :: after ∧
        token.span = ⟨1, 2⟩ ∧ token.kind = .openParen ∧ ¬ClosedIn after := by
  let closing : Token := ⟨.closeParen, ⟨4, 5⟩, ")"⟩
  let word : Token := ⟨.name, ⟨3, 4⟩, "x"⟩
  let opening : Token := ⟨.openParen, ⟨2, 3⟩, "("⟩
  have tokens : significant (tokenize "f((x)") =
      [⟨.name, ⟨0, 1⟩, "f"⟩, ⟨.openParen, ⟨1, 2⟩, "("⟩, opening, word, closing] := by
    decide +kernel
  have inner (stop : Nat) : verdict stop .any [word, closing] =
      .ok ((.symbol "x" ⟨3, 4⟩ : Formula Double), [closing]) := by
    rw [verdict_eq, verdict_operand_symbol rfl (by simp [closing])]
    exact verdict_climb_stops (by rintro _ ⟨⟩)
  have argument (stop : Nat) : verdict stop .any [opening, word, closing] =
      .ok ((.paren (.symbol "x" ⟨3, 4⟩) ⟨2, 5⟩ : Formula Double), []) := by
    rw [verdict_eq, verdict_operand_group rfl (by simp [word]), inner]
    exact verdict_climb_nil stop .any _
  have failed : (parse "f((x)" : Except _ (Formula Double)) =
      .error ⟨⟨1, 2⟩, .unclosedParenthesis true⟩ := by
    rw [parse_eq_ofTokens, tokens, ofTokens_eq_error_iff (by simp), verdict_eq,
      verdict_operand_call rfl rfl (by simp [opening]), verdict_arguments, argument]
    rfl
  obtain ⟨before, token, after, split_, place, kind, noPartner, -⟩ := blamed_parenthesis failed
  exact ⟨failed, before, token, after, split_, place, kind, noPartner rfl⟩

/-- In `(x*)` the closing parenthesis is blamed for having no partner. Its partner is the first token. -/
theorem closing_blamed_with_partner :
    ∃ before closing, significant (tokenize "(x*)") = before ++ [closing] ∧
      closing.kind = .closeParen ∧ OpenedIn before ∧
      (parse "(x*)" : Except _ (Formula Double)) =
        .error ⟨closing.span, .unclosedParenthesis false⟩ := by
  let opening : Token := ⟨.openParen, ⟨0, 1⟩, "("⟩
  let word : Token := ⟨.name, ⟨1, 2⟩, "x"⟩
  let sign : Token := ⟨.star, ⟨2, 3⟩, "*"⟩
  let closing : Token := ⟨.closeParen, ⟨3, 4⟩, ")"⟩
  have tokens : significant (tokenize "(x*)") = [opening, word, sign, closing] := by decide +kernel
  have nested : Nested [word, sign] := .plain (by decide) (by decide) (.plain (by decide) (by decide) .nil)
  have right (stop : Nat) (level : Precedence) : (verdict stop level [closing] : Verdict (Formula Double)) =
      .error ⟨closing.span, .unclosedParenthesis false⟩ := by
    rw [verdict_eq, verdict_operand_other (by decide)]
    rfl
  have product (stop : Nat) : (verdict stop .any [word, sign, closing] : Verdict (Formula Double)) =
      .error ⟨closing.span, .unclosedParenthesis false⟩ := by
    have star : sign.kind.binaryOp? = some .mul := rfl
    rw [verdict_eq, verdict_operand_symbol rfl (by simp [sign])]
    change (climbVerdict _ _ _ _ : Verdict (Formula Double)) = _
    rw [verdict_climb_cons star (by decide), right]
    rfl
  refine ⟨[opening, word, sign], closing, tokens, rfl, ⟨[], opening, _, rfl, rfl, nested⟩, ?_⟩
  rw [parse_eq_ofTokens, tokens, ofTokens_eq_error_iff (by simp), verdict_eq,
    verdict_operand_group rfl (by simp [word]), product]
  rfl

end Formula

end SymbolicCalculus
