/-
Module: SymbolicCalculus.Proofs.Formula.Blanks
Layer: Proofs
Purpose: Blanks between the words of a text do not matter. Two texts with the same words are read alike:
  as formulas and expressions that are equal up to their places, or both not at all and for the same
  reason, and what is found in one text at some of its words is found in the other at the same words.
Main exports: words, Corresponds, Formula.toExpr_alike, Formula.parse_of_words
-/
import SymbolicCalculus.Formula.Meaning
import SymbolicCalculus.Proofs.Formula.Simulation

namespace SymbolicCalculus

/-- The words of a text: the kinds and lexemes of its tokens, without the blanks. -/
def words (text : String) : List (TokenKind × String) :=
  (significant (tokenize text)).map Token.word

/-- The two regions reach in their rows of tokens from the one position to the other. -/
def Corresponds (tokens tokens' : List Token) (span span' : Span) : Prop :=
  ∃ (i j : Nat) (first last first' last' : Token),
    tokens[i]? = some first ∧ tokens[j]? = some last ∧ span = first.span.cover last.span ∧
    tokens'[i]? = some first' ∧ tokens'[j]? = some last' ∧ span' = first'.span.cover last'.span

theorem corresponds_coherent (tokens tokens' : List Token) :
    Span.Coherent (Corresponds tokens tokens') := by
  rintro _ _ _ _ ⟨i, _, first, _, first', _, begins, -, rfl, begins', -, rfl⟩
    ⟨_, j, _, last, _, last', -, ends, rfl, -, ends', rfl⟩
  exact ⟨i, j, first, last, first', last', begins, ends, rfl, begins', ends', rfl⟩

/-- Each token corresponds to the one at its position in the other row. -/
theorem corresponds_of_getElem? {tokens tokens' : List Token} {i : Nat} {token token' : Token}
    (found : tokens[i]? = some token) (found' : tokens'[i]? = some token') :
    Corresponds tokens tokens' token.span token'.span :=
  ⟨i, i, token, token, token', token', found, found, rfl, found', found', rfl⟩

namespace Formula

variable {α : Type} {R : Span → Span → Prop} {f f' : Formula α}

/-! ### Meanings -/

theorem Alike.innermost (alike : Alike R f f') : Alike R f.innermost f'.innermost := by
  induction alike with
  | paren _ _ ih => exact ih
  | number place => exact .number place
  | symbol place => exact .symbol place
  | call named count each closed place => exact .call named count each closed place
  | neg sign inside place => exact .neg sign inside place
  | binary sign first second place => exact .binary sign first second place

theorem Alike.variableName?_eq (alike : Alike R f f') : f.variableName? = f'.variableName? := by
  have inner := alike.innermost
  unfold variableName?
  generalize f.innermost = g at inner
  generalize f'.innermost = g' at inner
  cases inner <;> rfl

section Meanings

variable [Scalar α] {name : String} {nameSpan parenSpan : Span} {arguments : List (Formula α)}

theorem toExpr_neg (operand : Formula α) (signSpan : Span) :
    (neg operand signSpan).toExpr = operand.toExpr.map .neg := by
  rw [toExpr]
  cases operand.toExpr <;> rfl

theorem toExpr_binary (op : BinaryOp) (opSpan : Span) (left right : Formula α) :
    (binary op opSpan left right).toExpr =
      left.toExpr.bind fun l => right.toExpr.map (.binary op l) := by
  rw [toExpr]
  cases left.toExpr with
  | error => rfl
  | ok l => cases right.toExpr <;> rfl

theorem toExpr_operation (operation : isOperationName name = true) (operand by_ : Formula α) :
    (call name nameSpan [operand, by_] parenSpan).toExpr =
      match by_.variableName? with
      | none => .error ⟨by_.span, .expectedVariable name⟩
      | some var => operand.toExpr.map fun e => .call name [e, .symbol var] := by
  rw [toExpr, if_pos operation]
  cases by_.variableName? with
  | none => rfl
  | some var => cases operand.toExpr <;> rfl

theorem toExpr_operation_arity (operation : isOperationName name = true)
    (wrong : arguments.length ≠ 2) :
    (call name nameSpan arguments parenSpan).toExpr =
      .error ⟨nameSpan.cover parenSpan, .wrongArity name 2 arguments.length⟩ := by
  unfold toExpr
  rw [if_pos operation]
  split
  · exact absurd rfl wrong
  · rfl

theorem toExpr_unknown (operation : ¬ isOperationName name = true)
    (unknown : Elementary.ofName? name = none) :
    (call name nameSpan arguments parenSpan).toExpr =
      .error ⟨nameSpan, .unknownFunction name (similarFunctions name)⟩ := by
  unfold toExpr
  rw [if_neg operation, unknown]

theorem toExpr_function (operation : ¬ isOperationName name = true) {function : Elementary}
    (known : Elementary.ofName? name = some function) (operand : Formula α) :
    (call name nameSpan [operand] parenSpan).toExpr = operand.toExpr.map (.apply function) := by
  rw [toExpr.eq_def]
  dsimp only
  rw [if_neg operation, known]
  dsimp only
  cases operand.toExpr <;> rfl

theorem toExpr_function_arity (operation : ¬ isOperationName name = true) {function : Elementary}
    (known : Elementary.ofName? name = some function) (wrong : arguments.length ≠ 1) :
    (call name nameSpan arguments parenSpan).toExpr =
      .error ⟨nameSpan.cover parenSpan, .wrongArity name 1 arguments.length⟩ := by
  unfold toExpr
  rw [if_neg operation, known]
  dsimp only
  split
  · exact absurd rfl wrong
  · rfl

/-- Formulas that are alike stand for the same expression, or for none for the same reason. -/
theorem toExpr_alike (stop stop' : Nat) (alike : Alike R f f') :
    Paired (FaultAlike R stop stop') Eq f.toExpr f'.toExpr := by
  induction alike with
  | number => exact .done rfl
  | symbol => exact .done rfl
  | paren _ _ ih => exact ih
  | neg _ _ _ ih =>
    rw [toExpr_neg, toExpr_neg]
    exact ih.map (congrArg _)
  | binary _ _ _ _ first second =>
    rw [toExpr_binary, toExpr_binary]
    refine first.bind fun same => second.map fun same' => ?_
    rw [same, same']
  | @call name nameSpan nameSpan' parenSpan parenSpan' given given' named count each closed place
      ih =>
    by_cases operation : isOperationName name = true
    · by_cases two : given.length = 2
      · obtain ⟨operand, by_, rfl⟩ := List.length_eq_two.1 two
        obtain ⟨operand', by_', rfl⟩ := List.length_eq_two.1 (count ▸ two)
        have variable_ : Alike R by_ by_' := each (by simp)
        rw [toExpr_operation operation, toExpr_operation operation, variable_.variableName?_eq]
        cases by_'.variableName? with
        | none => exact .failed ⟨rfl, .inl variable_.place⟩
        | some var => exact (ih (by simp)).map fun same => by rw [same]
      · rw [toExpr_operation_arity operation two, toExpr_operation_arity operation (count ▸ two),
          count]
        exact .failed ⟨rfl, .inl place⟩
    · cases known : Elementary.ofName? name with
      | none =>
        rw [toExpr_unknown operation known, toExpr_unknown operation known]
        exact .failed ⟨rfl, .inl named⟩
      | some function =>
        by_cases one : given.length = 1
        · obtain ⟨operand, rfl⟩ := List.length_eq_one_iff.1 one
          obtain ⟨operand', rfl⟩ := List.length_eq_one_iff.1 (count ▸ one)
          rw [toExpr_function operation known, toExpr_function operation known]
          exact (ih (by simp)).map (congrArg _)
        · rw [toExpr_function_arity operation known one,
            toExpr_function_arity operation known (count ▸ one), count]
          exact .failed ⟨rfl, .inl place⟩

end Meanings

/-! ### Texts -/

/-- Blanks are insignificant. Two texts with the same words are formulas that differ in nothing but their
    places, each part of one at the same words as its counterpart; or both are none for the same reason,
    found at the same words or at the ends of the texts. The same holds of the expressions that the texts
    stand for, which are equal. -/
theorem parse_of_words [Numeral α] {text text' : String} (same : words text = words text') :
    Paired
        (FaultAlike (Corresponds (significant (tokenize text)) (significant (tokenize text')))
          (utf8Length text.toList) (utf8Length text'.toList))
        (Alike (Corresponds (significant (tokenize text)) (significant (tokenize text'))))
        (parse text : Except _ (Formula α)) (parse text') ∧
      Paired
        (FaultAlike (Corresponds (significant (tokenize text)) (significant (tokenize text')))
          (utf8Length text.toList) (utf8Length text'.toList))
        Eq (Expr.parse text : Except _ (Expr α)) (Expr.parse text') := by
  have formulas := ofTokens_alike (α := α) (utf8Length text.toList) (utf8Length text'.toList)
    (corresponds_coherent _ _) (alike_of_words same corresponds_of_getElem?)
  rw [← parse_eq_ofTokens, ← parse_eq_ofTokens] at formulas
  refine ⟨formulas, ?_⟩
  unfold Expr.parse
  generalize (parse text : Except _ (Formula α)) = read at formulas
  generalize (parse text' : Except _ (Formula α)) = read' at formulas
  cases formulas with
  | failed blamed => exact .failed ⟨congrArg FormulaCause.parse blamed.cause, blamed.place⟩
  | @done f f' alike =>
    have meanings := toExpr_alike (utf8Length text.toList) (utf8Length text'.toList) alike
    dsimp only
    generalize f.toExpr = meaning at meanings
    generalize f'.toExpr = meaning' at meanings
    cases meanings with
    | done equal => exact .done equal
    | failed blamed => exact .failed ⟨congrArg FormulaCause.meaning blamed.cause, blamed.place⟩

/-- Blanks around and between the words of a sum. -/
theorem parse_of_words_sum :
    words "  1+\n2*x " = words "1 + 2*x" ∧
      Paired
        (FaultAlike
          (Corresponds (significant (tokenize "  1+\n2*x ")) (significant (tokenize "1 + 2*x")))
          (utf8Length "  1+\n2*x ".toList) (utf8Length "1 + 2*x".toList))
        (Alike (Corresponds (significant (tokenize "  1+\n2*x "))
          (significant (tokenize "1 + 2*x"))))
        (parse "  1+\n2*x " : Except _ (Formula Double)) (parse "1 + 2*x") ∧
      Paired
        (FaultAlike
          (Corresponds (significant (tokenize "  1+\n2*x ")) (significant (tokenize "1 + 2*x")))
          (utf8Length "  1+\n2*x ".toList) (utf8Length "1 + 2*x".toList))
        Eq (Expr.parse "  1+\n2*x " : Except _ (Expr Double)) (Expr.parse "1 + 2*x") := by
  have same : words "  1+\n2*x " = words "1 + 2*x" := by decide +kernel
  exact ⟨same, parse_of_words same⟩

end Formula

end SymbolicCalculus
