/-
Module: SymbolicCalculus.Proofs.Formula.FaultRegions
Layer: Proofs
Purpose: The regions at which a text is found to be no formula, or a formula to stand for no expression. A
  reader blames nothing but tokens of its row or the end of the text, and where it blames two tokens it
  names the one that stands before the other first; what is ill typed is a part of the formula, which has
  tokens of its own. So whatever is blamed is a region of the text.
Main exports: Spanned, Spanned.isIn, Formula.Stays, Formula.Stays.andThen, Formula.verdict_stays,
  Formula.isIn_of_parse_error, Formula.isIn_of_toExpr_error, Expr.isIn_of_parse_error
-/
import SymbolicCalculus.Proofs.Formula.Places
import SymbolicCalculus.Proofs.Formula.WellTyped

namespace SymbolicCalculus

open Grammar

/-! ### Regions of tokens -/

section Rows

variable {row tokens : List Token} {span : Span}

/-- The region reaches from one token of the row to the same or to a later one. -/
def Spanned (tokens : List Token) (span : Span) : Prop :=
  ∃ (own : List Token) (first last : Token), own.Sublist tokens ∧ own.head? = some first ∧
    own.getLast? = some last ∧ span = first.span.cover last.span

theorem Spanned.mono (spanned : Spanned row span) (within : row.Sublist tokens) :
    Spanned tokens span := by
  obtain ⟨own, first, last, sub, ends⟩ := spanned
  exact ⟨own, first, last, sub.trans within, ends⟩

theorem Spanned.of_mem {token : Token} (mem : token ∈ tokens) : Spanned tokens token.span :=
  ⟨[token], token, token, List.singleton_sublist.2 mem, rfl, rfl, rfl⟩

/-- What tokens of a text span is a region of the text, since the tokens stand in it one after the
    other. -/
theorem Spanned.isIn {text : String} (spanned : Spanned (significant (tokenize text)) span) :
    span.IsIn text := by
  obtain ⟨own, first, last, sub, begins, ends, rfl⟩ := spanned
  have within : own.Sublist (tokenize text) := sub.trans List.filter_sublist
  have apart : own.Pairwise fun first second => first.span.Precedes second.span :=
    (pairwise_tokensFrom 0 text.toList).sublist within
  have inside : first.span.IsIn text :=
    isIn_of_mem_tokenize (within.subset (List.mem_of_head? begins))
  have inside' : last.span.IsIn text :=
    isIn_of_mem_tokenize (within.subset (List.mem_of_getLast? ends))
  refine inside.cover inside' ?_
  obtain ⟨others, rfl⟩ := List.head?_eq_some_iff.1 begins
  rcases List.mem_cons.1 (List.mem_of_getLast? ends) with rfl | later
  · exact inside.ordered
  · have before : first.span.stop ≤ last.span.start := List.rel_of_pairwise_cons apart later
    have ordered := inside.ordered
    have ordered' := inside'.ordered
    omega

end Rows

namespace Formula

/-! ### What the readers blame -/

section Answers

variable {β γ : Type} {stop : Nat} {row tokens : List Token}

/-- The answer stays with the tokens: it leaves some of them, or it blames a region of them or the end of
    the text. -/
inductive Stays {β : Type} (stop : Nat) (tokens : List Token) : Verdict β → Prop where
  | done {value : β} {rest : List Token} (left : rest.Sublist tokens) :
      Stays stop tokens (.ok (value, rest))
  | failed {fault : Located ParseCause}
      (place : fault.span = .point stop ∨ Spanned tokens fault.span) : Stays stop tokens (.error fault)

theorem Stays.mono {verdict : Verdict β} (stays : Stays stop row verdict)
    (within : row.Sublist tokens) : Stays stop tokens verdict := by
  cases stays with
  | done left => exact .done (left.trans within)
  | failed place => exact .failed (place.imp_right fun spanned => spanned.mono within)

/-- A second step is given what the first one has left. -/
theorem Stays.andThen {first : Verdict β} {next : β → List Token → Verdict γ}
    (begins : Stays stop row first) (within : row.Sublist tokens)
    (goesOn : ∀ value rest, rest.Sublist row → Stays stop tokens (next value rest)) :
    Stays stop tokens (first.andThen next) := by
  cases begins with
  | done left => exact goesOn _ _ left
  | failed place => exact (Stays.failed place).mono within

/-- A token of the row is blamed. -/
theorem Stays.blames {token : Token} {cause : ParseCause} (mem : token ∈ tokens) :
    Stays stop tokens (.error ⟨token.span, cause⟩ : Verdict β) :=
  .failed (.inr (.of_mem mem))

end Answers

section Readers

variable {α : Type} {stop : Nat} {row tokens : List Token}

theorem closeGroup_stays {opening : Token} {inner : Formula α} (mem : opening ∈ tokens)
    (within : row.Sublist tokens) : Stays stop tokens (closeGroup opening inner row) := by
  cases row with
  | nil => exact .blames mem
  | cons closing rest =>
    rw [closeGroup]
    split
    · exact .done ((List.sublist_cons_self closing rest).trans within)
    · exact .blames (within.subset List.mem_cons_self)

theorem ending_stays {whole : Formula α} (within : row.Sublist tokens) :
    Stays stop tokens (ending whole row) := by
  cases row with
  | nil => exact .done within
  | cons next rest => exact .blames (within.subset List.mem_cons_self)

variable [Numeral α]

/-- Whatever the level, the answer to the row stays with its tokens. -/
def ReadsWithin (α : Type) [Numeral α] (stop : Nat) (tokens : List Token) : Prop :=
  ∀ level : Precedence, Stays stop tokens (verdict stop level tokens : Verdict (Formula α))

/-- The parenthesis before the arguments may be blamed as well. -/
theorem arguments_stays {opening : Span} (known : Spanned tokens opening)
    (within : row.Sublist tokens)
    (reads : ∀ shorter : List Token, shorter.length ≤ row.length → ReadsWithin α stop shorter) :
    Stays stop tokens
      (argumentsVerdict stop opening row : Verdict (List (Formula α) × Span)) := by
  induction len : row.length using Nat.strongRecOn generalizing row with
  | ind n ih =>
    rw [verdict_arguments]
    refine (reads row (Nat.le_refl _) .any).andThen within fun first left sub => ?_
    cases left with
    | nil => exact .failed (.inr known)
    | cons found rest =>
      have mem : found ∈ tokens := within.subset (sub.subset List.mem_cons_self)
      have behind : rest.Sublist row := (List.sublist_cons_self found rest).trans sub
      have fewer : rest.length < row.length := sub.length_le
      rw [afterArgument]
      split
      · exact .done (behind.trans within)
      split
      · refine (ih rest.length (len ▸ fewer) (behind.trans within)
          (fun shorter bound => reads shorter (by omega)) rfl).andThen (List.Sublist.refl _) ?_
        exact fun _ _ left => .done left
      · exact .blames mem

theorem operand_stays
    (reads : ∀ shorter : List Token, shorter.length < tokens.length → ReadsWithin α stop shorter) :
    Stays stop tokens (operandVerdict stop tokens : Verdict (Formula α)) := by
  cases tokens using front_cases with
  | nil =>
    rw [verdict_operand_nil]
    exact .failed (.inl rfl)
  | minus sign rest minus =>
    rw [verdict_operand_minus minus]
    exact (reads rest (by simp) .neg).andThen (List.sublist_cons_self ..)
      fun _ _ left => .done (left.cons sign)
  | number literal rest number =>
    rw [verdict_operand_number number]
    split
    · exact .done (List.sublist_cons_self ..)
    · exact .blames List.mem_cons_self
  | emptyGroup opening closing rest opens closes =>
    rw [verdict_operand_emptyGroup opens closes]
    exact .failed (.inr ⟨[opening, closing], opening, closing, by simp, rfl, rfl, rfl⟩)
  | group opening inside opens filled =>
    rw [verdict_operand_group opens filled]
    exact (reads inside (by simp) .any).andThen (List.sublist_cons_self ..)
      fun _ _ left => closeGroup_stays List.mem_cons_self (left.cons opening)
  | symbol word rest name alone =>
    rw [verdict_operand_symbol name alone]
    exact .done (List.sublist_cons_self ..)
  | emptyCall word opening closing rest name opens closes =>
    rw [verdict_operand_emptyCall name opens closes]
    exact .done (List.sublist_append_right [word, opening, closing] rest)
  | call word opening inside name opens filled =>
    rw [verdict_operand_call name opens filled]
    have given : Stays stop (word :: opening :: inside)
        (argumentsVerdict stop opening.span inside : Verdict (List (Formula α) × Span)) := by
      refine arguments_stays (.of_mem (by simp)) (List.sublist_append_right [word, opening] inside) ?_
      exact fun shorter bound => reads shorter (by simp only [List.length_cons]; omega)
    exact given.andThen (List.Sublist.refl _) fun _ _ left => .done left
  | other found rest other =>
    rw [verdict_operand_other other]
    exact .blames List.mem_cons_self

theorem climb_stays {level : Precedence} {left : Formula α}
    (reads : ∀ shorter : List Token, shorter.length < tokens.length → ReadsWithin α stop shorter) :
    Stays stop tokens (climbVerdict stop level left tokens) := by
  induction len : tokens.length using Nat.strongRecOn generalizing tokens left with
  | ind n ih =>
    cases tokens with
    | nil =>
      rw [verdict_climb_nil]
      exact .done (List.Sublist.refl _)
    | cons sign inside =>
      rcases loose_or_tight sign level with loose | ⟨op, known, tight⟩
      · rw [verdict_climb_stops loose]
        exact .done (List.Sublist.refl _)
      · rw [verdict_climb_cons known tight]
        refine (reads inside (by simp) op.rightLevel).andThen (List.sublist_cons_self ..)
          fun right behind sub => ?_
        have fewer : behind.length < n := by
          rw [← len, List.length_cons]
          exact Nat.lt_succ_of_le sub.length_le
        exact (ih behind.length fewer (fun shorter bound => reads shorter (by omega)) rfl).mono
          (sub.cons sign)

/-- By induction on the length of the row: all readers come back to shorter ones. -/
theorem verdict_stays (stop : Nat) (tokens : List Token) : ReadsWithin α stop tokens := by
  induction len : tokens.length using Nat.strongRecOn generalizing tokens with
  | ind n ih =>
    intro level
    have reads : ∀ shorter : List Token, shorter.length < tokens.length →
        ReadsWithin α stop shorter := fun shorter bound => ih _ (len ▸ bound) shorter rfl
    rw [verdict_eq]
    refine (operand_stays reads).andThen (List.Sublist.refl _) fun first rest sub => ?_
    exact (climb_stays fun shorter bound => reads shorter
      (Nat.lt_of_lt_of_le bound sub.length_le)).mono sub

/-- A row that is no formula is blamed at the end of the text or at tokens of it. -/
theorem ofTokens_blames {fault : Located ParseCause}
    (failed : (ofTokens stop tokens : Except _ (Formula α)) = .error fault) :
    fault.span = .point stop ∨ Spanned tokens fault.span := by
  cases tokens with
  | nil =>
    cases failed
    exact .inl rfl
  | cons first others =>
    rw [ofTokens_eq_error_iff (List.cons_ne_nil first others)] at failed
    have stays : Stays stop (first :: others)
        ((verdict stop .any (first :: others) : Verdict (Formula α)).andThen ending) :=
      (verdict_stays stop _ .any).andThen (List.Sublist.refl _) fun _ _ left => ending_stays left
    rw [failed] at stays
    cases stays with
    | failed place => exact place

/-- A text that is no formula is blamed at a region of it. -/
theorem isIn_of_parse_error {text : String} {fault : Located ParseCause}
    (failed : (parse text : Except _ (Formula α)) = .error fault) : fault.span.IsIn text := by
  rcases ofTokens_blames failed with place | spanned
  · rw [place, ← utf8ByteSize_eq]
    exact (Span.isIn_whole text).point_stop
  · exact spanned.isIn

/-! ### What is ill typed -/

/-- What is blamed for being ill typed is a part of the formula, or the name in one. -/
theorem spanned_of_illTyped {part : Formula α} {c : Category} {fault : Located MeaningCause}
    (derives : Derives c tokens part) (ill : IllTyped part fault) : Spanned tokens fault.span := by
  cases ill with
  | unknown =>
    obtain ⟨word, opening, own, closing, rfl, -, -, -, -, rfl, -⟩ := spelled_of_derives derives
    exact .of_mem List.mem_cons_self
  | operationArity | functionArity =>
    obtain ⟨first, last, begins, ends, place⟩ := span_of_derives derives
    exact ⟨tokens, first, last, List.Sublist.refl _, begins, ends, place⟩
  | notVariable =>
    obtain ⟨own, within, inner⟩ :=
      exists_tokens_of_part (.argument (List.mem_cons_of_mem _ List.mem_cons_self) (.refl _)) derives
    obtain ⟨first, last, begins, ends, place⟩ := span_of_derives inner
    exact ⟨own, first, last, within.sublist, begins, ends, place⟩

/-- A formula that stands for no expression is blamed at a region of the text that it was read from. -/
theorem isIn_of_toExpr_error {text : String} {f : Formula α} {fault : Located MeaningCause}
    (read : parse text = .ok f) (failed : f.toExpr = .error fault) : fault.span.IsIn text := by
  have founded := founded_toExpr f
  rw [failed] at founded
  obtain ⟨part, within, ill⟩ := founded
  obtain ⟨own, neighbours, derives⟩ :=
    exists_tokens_of_part within ((ofTokens_eq_ok_iff_derives _ _ f).1 read)
  exact ((spanned_of_illTyped derives ill).mono neighbours.sublist).isIn

end Readers

end Formula

/-- A text that stands for no expression is blamed at a region of it. -/
theorem Expr.isIn_of_parse_error {α : Type} [Numeral α] {text : String} {fault : Located FormulaCause}
    (failed : (Expr.parse text : Except _ (Expr α)) = .error fault) : fault.span.IsIn text := by
  unfold Expr.parse at failed
  split at failed
  · next unread =>
    cases failed
    exact Formula.isIn_of_parse_error unread
  · next formula read =>
    split at failed
    · next meaningless =>
      cases failed
      exact Formula.isIn_of_toExpr_error read meaningless
    · cases failed

end SymbolicCalculus
