/-
Module: SymbolicCalculus.Proofs.Formula.Simulation
Layer: Proofs
Purpose: Reading two rows of tokens that differ in nothing but their places. Kinds and lexemes decide what
  is read; the places are only carried along and put together. So whatever relation the places of the
  tokens are in, those of the formulas and of the faults are in it as well, if it is kept when regions are
  put together.
Main exports: Paired, Token.Alike, Token.word, Formula.Alike, Span.Coherent, FaultAlike,
  Formula.verdict_alike, Formula.ofTokens_alike
-/
import SymbolicCalculus.Proofs.Formula.Verdicts

namespace SymbolicCalculus

/-! ### Two runs side by side -/

/-- Both computations succeed, with related values, or both fail, for related reasons. -/
inductive Paired {ε ε' β β' : Type} (blames : ε → ε' → Prop) (gives : β → β' → Prop) :
    Except ε β → Except ε' β' → Prop where
  | done {value : β} {value' : β'} (same : gives value value') :
      Paired blames gives (.ok value) (.ok value')
  | failed {reason : ε} {reason' : ε'} (same : blames reason reason') :
      Paired blames gives (.error reason) (.error reason')

theorem Paired.bind {ε ε' β β' γ γ' : Type} {blames : ε → ε' → Prop} {gives : β → β' → Prop}
    {gives' : γ → γ' → Prop} {first : Except ε β} {first' : Except ε' β'} {next : β → Except ε γ}
    {next' : β' → Except ε' γ'} (both : Paired blames gives first first')
    (goesOn : ∀ {value value'}, gives value value' →
      Paired blames gives' (next value) (next' value')) :
    Paired blames gives' (first.bind next) (first'.bind next') := by
  cases both with
  | done same => exact goesOn same
  | failed same => exact .failed same

theorem Paired.map {ε ε' β β' γ γ' : Type} {blames : ε → ε' → Prop} {gives : β → β' → Prop}
    {gives' : γ → γ' → Prop} {first : Except ε β} {first' : Except ε' β'} {make : β → γ}
    {make' : β' → γ'} (both : Paired blames gives first first')
    (makes : ∀ {value value'}, gives value value' → gives' (make value) (make' value')) :
    Paired blames gives' (first.map make) (first'.map make') := by
  cases both with
  | done same => exact .done (makes same)
  | failed same => exact .failed same

/-- The relation of regions is kept when regions are put together. -/
def Span.Coherent (R : Span → Span → Prop) : Prop :=
  ∀ ⦃first first' last last' : Span⦄, R first first' → R last last' →
    R (first.cover last) (first'.cover last')

/-- Two tokens of one kind and with one lexeme, at related places. -/
structure Token.Alike (R : Span → Span → Prop) (token token' : Token) : Prop where
  kind : token.kind = token'.kind
  lexeme : token.lexeme = token'.lexeme
  place : R token.span token'.span

/-- A token without its place. -/
def Token.word (token : Token) : TokenKind × String := (token.kind, token.lexeme)

/-- Tokens with the same words are alike if the places of each two of them are related. -/
theorem alike_of_words {R : Span → Span → Prop} {tokens tokens' : List Token}
    (same : tokens.map Token.word = tokens'.map Token.word)
    (places : ∀ {i : Nat} {token token' : Token}, tokens[i]? = some token →
      tokens'[i]? = some token' → R token.span token'.span) :
    List.Forall₂ (Token.Alike R) tokens tokens' := by
  have lengths : tokens.length = tokens'.length := by
    simpa using congrArg List.length same
  refine List.forall₂_iff_get.2 ⟨lengths, fun i bound bound' => ?_⟩
  have word : tokens[i].word = tokens'[i].word := by
    simpa [bound, bound'] using congrArg (fun row => row[i]?) same
  obtain ⟨kind, lexeme⟩ := Prod.mk.inj word
  exact ⟨kind, lexeme,
    places (List.getElem?_eq_getElem bound) (List.getElem?_eq_getElem bound')⟩

/-- Two faults with one cause, at related places or at the ends of the two texts. -/
structure FaultAlike {κ : Type} (R : Span → Span → Prop) (stop stop' : Nat)
    (fault fault' : Located κ) : Prop where
  cause : fault.cause = fault'.cause
  place : R fault.span fault'.span ∨ fault.span = .point stop ∧ fault'.span = .point stop'

/-- Two formulas that differ in nothing but their places, with each part at a place that is related to
    that of its counterpart. -/
inductive Formula.Alike {α : Type} (R : Span → Span → Prop) : Formula α → Formula α → Prop where
  | number {value : α} {span span' : Span} (place : R span span') :
      Alike R (.number value span) (.number value span')
  | symbol {name : String} {span span' : Span} (place : R span span') :
      Alike R (.symbol name span) (.symbol name span')
  | paren {inner inner' : Formula α} {span span' : Span} (inside : Alike R inner inner')
      (place : R span span') : Alike R (.paren inner span) (.paren inner' span')
  | call {name : String} {nameSpan nameSpan' parenSpan parenSpan' : Span}
      {arguments arguments' : List (Formula α)} (named : R nameSpan nameSpan')
      (count : arguments.length = arguments'.length)
      (each : ∀ {argument argument' : Formula α},
        (argument, argument') ∈ arguments.zip arguments' → Alike R argument argument')
      (closed : R parenSpan parenSpan')
      (place : R (nameSpan.cover parenSpan) (nameSpan'.cover parenSpan')) :
      Alike R (.call name nameSpan arguments parenSpan) (.call name nameSpan' arguments' parenSpan')
  | neg {operand operand' : Formula α} {signSpan signSpan' : Span} (sign : R signSpan signSpan')
      (inside : Alike R operand operand')
      (place : R (signSpan.cover operand.span) (signSpan'.cover operand'.span)) :
      Alike R (.neg operand signSpan) (.neg operand' signSpan')
  | binary {op : BinaryOp} {opSpan opSpan' : Span} {left right left' right' : Formula α}
      (sign : R opSpan opSpan') (first : Alike R left left') (second : Alike R right right')
      (place : R (left.span.cover right.span) (left'.span.cover right'.span)) :
      Alike R (.binary op opSpan left right) (.binary op opSpan' left' right')

/-- The places of two formulas that are alike are related. -/
theorem Formula.Alike.place {α : Type} {R : Span → Span → Prop} {f f' : Formula α}
    (alike : Alike R f f') : R f.span f'.span := by
  cases alike <;> assumption

/-- A call is alike if its arguments are, one by one. -/
theorem Formula.Alike.called {α : Type} {R : Span → Span → Prop} (coherent : Span.Coherent R)
    {name : String} {nameSpan nameSpan' parenSpan parenSpan' : Span}
    {arguments arguments' : List (Formula α)} (named : R nameSpan nameSpan')
    (given : List.Forall₂ (Alike R) arguments arguments') (closed : R parenSpan parenSpan') :
    Alike R (.call name nameSpan arguments parenSpan)
      (.call name nameSpan' arguments' parenSpan') := by
  obtain ⟨count, each⟩ := List.forall₂_iff_zip.1 given
  exact .call named count each closed (coherent named closed)

namespace Formula

variable {α : Type} {R : Span → Span → Prop} {stop stop' : Nat}

/-- Two answers of a reader that are alike, with alike tokens left behind them. -/
def VerdictAlike {β : Type} (R : Span → Span → Prop) (stop stop' : Nat) (gives : β → β → Prop) :
    Verdict β → Verdict β → Prop :=
  Paired (FaultAlike R stop stop') fun read read' =>
    gives read.1 read'.1 ∧ List.Forall₂ (Token.Alike R) read.2 read'.2

theorem VerdictAlike.andThen {β γ : Type} {gives : β → β → Prop} {gives' : γ → γ → Prop}
    {first first' : Verdict β} {next next' : β → List Token → Verdict γ}
    (alike : VerdictAlike R stop stop' gives first first')
    (goesOn : ∀ {value value' rest rest'}, first = .ok (value, rest) → gives value value' →
      List.Forall₂ (Token.Alike R) rest rest' →
      VerdictAlike R stop stop' gives' (next value rest) (next' value' rest')) :
    VerdictAlike R stop stop' gives' (first.andThen next) (first'.andThen next') := by
  cases alike with
  | done same => exact goesOn rfl same.1 same.2
  | failed same => exact .failed same

/-- Tokens that are alike begin with the same kinds. -/
theorem head_of_alike {kind : TokenKind} {tokens tokens' : List Token}
    (alike : List.Forall₂ (Token.Alike R) tokens tokens')
    (filled : ∀ next ∈ tokens.head?, next.kind ≠ kind) :
    ∀ next ∈ tokens'.head?, next.kind ≠ kind := by
  cases alike with
  | nil => rintro _ ⟨⟩
  | cons first _ =>
    rintro _ ⟨⟩
    rw [← first.kind]
    exact filled _ rfl

/-! ### Steps -/

theorem closeGroup_alike (coherent : Span.Coherent R) {opening opening' : Token}
    {inner inner' : Formula α} {tokens tokens' : List Token} (opens : Token.Alike R opening opening')
    (inside : Alike R inner inner') (alike : List.Forall₂ (Token.Alike R) tokens tokens') :
    VerdictAlike R stop stop' (Alike R) (closeGroup opening inner tokens)
      (closeGroup opening' inner' tokens') := by
  cases alike with
  | nil => exact .failed ⟨rfl, .inl opens.place⟩
  | @cons closing closing' rest rest' same others =>
    rw [closeGroup, closeGroup, ← same.kind]
    split
    · exact .done ⟨.paren inside (coherent opens.place same.place), others⟩
    · exact .failed ⟨by simp [unexpected, same.kind], .inl same.place⟩

theorem ending_alike {whole whole' : Formula α} {tokens tokens' : List Token}
    (same : Alike R whole whole') (alike : List.Forall₂ (Token.Alike R) tokens tokens') :
    VerdictAlike R stop stop' (Alike R) (ending whole tokens) (ending whole' tokens') := by
  cases alike with
  | nil => exact .done ⟨same, .nil⟩
  | cons next _ => exact .failed ⟨by simp [next.kind], .inl next.place⟩

/-! ### Readers

All readers come back to the climb on fewer tokens, so the statement about each of them is proved under
the assumption that shorter rows are read alike. -/

variable [Numeral α]

/-- The row is read like every other one that differs from it in nothing but the places. -/
def ReadsAlike (α : Type) [Numeral α] (R : Span → Span → Prop) (stop stop' : Nat)
    (tokens : List Token) : Prop :=
  ∀ {level : Precedence} {tokens' : List Token}, List.Forall₂ (Token.Alike R) tokens tokens' →
    VerdictAlike R stop stop' (Alike R) (verdict stop level tokens : Verdict (Formula α))
      (verdict stop' level tokens')

/-- Two rows of arguments, with the closing parentheses behind them. -/
def GivenAlike (R : Span → Span → Prop) (given given' : List (Formula α) × Span) : Prop :=
  List.Forall₂ (Alike R) given.1 given'.1 ∧ R given.2 given'.2

theorem arguments_alike {opening opening' : Span} {tokens tokens' : List Token}
    (reads : ∀ shorter : List Token, shorter.length ≤ tokens.length →
      ReadsAlike α R stop stop' shorter)
    (opens : R opening opening') (alike : List.Forall₂ (Token.Alike R) tokens tokens') :
    VerdictAlike R stop stop' (GivenAlike R)
      (argumentsVerdict stop opening tokens : Verdict (List (Formula α) × Span))
      (argumentsVerdict stop' opening' tokens') := by
  induction len : tokens.length using Nat.strongRecOn generalizing tokens tokens' with
  | ind n ih =>
    rw [verdict_arguments, verdict_arguments]
    refine (reads tokens (Nat.le_refl _) alike).andThen ?_
    intro first first' left left' read same others
    have fewer := shorter_of_verdict read
    cases others with
    | nil => exact .failed ⟨rfl, .inl opens⟩
    | @cons found found' rest rest' next others =>
      rw [List.length_cons] at fewer
      rw [afterArgument, afterArgument, ← next.kind]
      split_ifs
      · exact .done ⟨⟨.cons same .nil, next.place⟩, others⟩
      · refine (ih rest.length (by omega)
          (fun row bound => reads row (by omega)) others rfl).andThen ?_
        intro given given' _ _ _ row behind
        exact .done ⟨⟨.cons same row.1, row.2⟩, behind⟩
      · exact .failed ⟨by simp [unexpected, next.kind], .inl next.place⟩

theorem operand_alike (coherent : Span.Coherent R) {tokens tokens' : List Token}
    (reads : ∀ shorter : List Token, shorter.length < tokens.length →
      ReadsAlike α R stop stop' shorter)
    (alike : List.Forall₂ (Token.Alike R) tokens tokens') :
    VerdictAlike R stop stop' (Alike R) (operandVerdict stop tokens : Verdict (Formula α))
      (operandVerdict stop' tokens') := by
  induction tokens using front_cases with
  | nil =>
    cases alike
    rw [verdict_operand_nil, verdict_operand_nil]
    exact .failed ⟨rfl, .inr ⟨rfl, rfl⟩⟩
  | minus sign rest minus =>
    obtain _ | ⟨same, others⟩ := alike
    rw [verdict_operand_minus minus, verdict_operand_minus (same.kind ▸ minus)]
    refine (reads rest (by simp) others).andThen ?_
    intro whole whole' _ _ _ inside behind
    exact .done ⟨.neg same.place inside (coherent same.place inside.place), behind⟩
  | number literal rest number =>
    obtain _ | ⟨same, others⟩ := alike
    have number' := number
    rw [Token.IsNumber, same.kind] at number'
    rw [verdict_operand_number number, verdict_operand_number number', ← same.lexeme]
    split
    · exact .done ⟨.number same.place, others⟩
    · exact .failed ⟨rfl, .inl same.place⟩
  | emptyGroup opening closing rest opens closes =>
    obtain _ | ⟨same, _ | ⟨same', others⟩⟩ := alike
    rw [verdict_operand_emptyGroup opens closes,
      verdict_operand_emptyGroup (same.kind ▸ opens) (same'.kind ▸ closes)]
    exact .failed ⟨rfl, .inl (coherent same.place same'.place)⟩
  | group opening inside opens filled =>
    obtain _ | ⟨same, others⟩ := alike
    rw [verdict_operand_group opens filled,
      verdict_operand_group (same.kind ▸ opens) (head_of_alike others filled)]
    exact (reads inside (by simp) others).andThen fun _ => closeGroup_alike coherent same
  | symbol word rest name alone =>
    obtain _ | ⟨same, others⟩ := alike
    rw [verdict_operand_symbol name alone,
      verdict_operand_symbol (same.kind ▸ name) (head_of_alike others alone), ← same.lexeme]
    exact .done ⟨.symbol same.place, others⟩
  | emptyCall word opening closing rest name opens closes =>
    obtain _ | ⟨same, _ | ⟨same', _ | ⟨same'', others⟩⟩⟩ := alike
    rw [verdict_operand_emptyCall name opens closes, verdict_operand_emptyCall (same.kind ▸ name)
      (same'.kind ▸ opens) (same''.kind ▸ closes), ← same.lexeme]
    exact .done ⟨.called coherent same.place .nil (coherent same'.place same''.place), others⟩
  | call word opening inside name opens filled =>
    obtain _ | ⟨same, _ | ⟨same', others⟩⟩ := alike
    rw [verdict_operand_call name opens filled, verdict_operand_call (same.kind ▸ name)
      (same'.kind ▸ opens) (head_of_alike others filled), ← same.lexeme]
    refine (arguments_alike (fun row bound => reads row ?_) same'.place others).andThen ?_
    · simp only [List.length_cons]
      omega
    · intro given given' _ _ _ row behind
      exact .done ⟨.called coherent same.place row.1 (coherent same'.place row.2), behind⟩
  | other found rest other =>
    obtain _ | ⟨same, others⟩ := alike
    rw [verdict_operand_other other, verdict_operand_other (same.kind ▸ other)]
    exact .failed ⟨by simp [same.kind], .inl same.place⟩

theorem climb_alike (coherent : Span.Coherent R) {level : Precedence} {left left' : Formula α}
    {tokens tokens' : List Token}
    (reads : ∀ shorter : List Token, shorter.length < tokens.length →
      ReadsAlike α R stop stop' shorter)
    (same : Alike R left left') (alike : List.Forall₂ (Token.Alike R) tokens tokens') :
    VerdictAlike R stop stop' (Alike R) (climbVerdict stop level left tokens)
      (climbVerdict stop' level left' tokens') := by
  -- each operator shortens the tokens, so the climb is followed by induction on their number
  induction len : tokens.length using Nat.strongRecOn generalizing tokens tokens' left left' with
  | ind n ih =>
    cases alike with
    | nil =>
      rw [verdict_climb_nil, verdict_climb_nil]
      exact .done ⟨same, .nil⟩
    | @cons sign sign' rest rest' signs others =>
      rw [List.length_cons] at len
      rcases loose_or_tight sign level with loose | ⟨op, known, tight⟩
      · rw [verdict_climb_stops loose, verdict_climb_stops (signs.kind ▸ loose)]
        exact .done ⟨same, .cons signs others⟩
      · rw [verdict_climb_cons known tight, verdict_climb_cons (signs.kind ▸ known) tight]
        refine (reads rest (by simp) others).andThen ?_
        intro right right' behind behind' read second after
        have fewer := shorter_of_verdict read
        exact ih behind.length (by omega)
          (fun row bound => reads row (by rw [List.length_cons]; omega))
          (.binary signs.place same second (coherent same.place second.place)) after rfl

theorem verdict_alike (coherent : Span.Coherent R) (tokens : List Token) :
    ReadsAlike α R stop stop' tokens := by
  induction len : tokens.length using Nat.strongRecOn generalizing tokens with
  | ind n ih =>
    intro level tokens' alike
    have reads : ∀ shorter : List Token, shorter.length < tokens.length →
        ReadsAlike α R stop stop' shorter := by
      intro shorter bound
      exact ih shorter.length (by rw [← len]; exact bound) shorter rfl
    rw [verdict_eq, verdict_eq]
    refine (operand_alike coherent reads alike).andThen ?_
    intro first first' rest rest' read same others
    have fewer := Reading.shorter_of_verdict read
    exact climb_alike coherent (fun row bound => reads row (by omega)) same others

/-- Rows of tokens that differ in nothing but their places are alike as formulas, or they are none for
    the same reason. -/
theorem ofTokens_alike (stop stop' : Nat) (coherent : Span.Coherent R) {tokens tokens' : List Token}
    (alike : List.Forall₂ (Token.Alike R) tokens tokens') :
    Paired (FaultAlike R stop stop') (Alike R) (ofTokens stop tokens : Except _ (Formula α))
      (ofTokens stop' tokens') := by
  cases alike with
  | nil => exact .failed ⟨rfl, .inr ⟨rfl, rfl⟩⟩
  | cons first others =>
    rw [ofTokens_of_ne_nil stop (by simp), ofTokens_of_ne_nil stop' (by simp)]
    exact ((verdict_alike coherent _ (.cons first others)).andThen fun _ => ending_alike).map
      fun same => same.1

end Formula

end SymbolicCalculus
