/-
Module: SymbolicCalculus.Proofs.Compile.Refusal
Layer: Proofs
Purpose: Why a text is made into no function of a variable. It cannot be prepared, or what was prepared has
  another variable in it; then the first of these in order is blamed, and it is a name in the text. The
  function itself can always be made, since no call is left. Simplification removes variables and brings
  none in, so it turns no text away that is accepted without it, unless it reaches its limit.
Main exports: Expr.pairwise_freeSymbols, Expr.FirstOther, Expr.exists_function,
  Compiled.prepare_eq_ok_iff, Compiled.prepare_eq_error_iff, Compiled.ofText_eq_error_iff,
  Compiled.refused_only_for
-/
import SymbolicCalculus.Proofs.Calculus.Preparation

namespace SymbolicCalculus

variable {α : Type}

namespace Expr

/-! ### The first of the other symbols -/

/-- A name that is put into an ascending row takes its place in it. -/
theorem pairwise_insertName (name : String) : ∀ {names : List String},
    names.Pairwise (· < ·) → (insertName name names).Pairwise (· < ·)
  | [], _ => List.pairwise_singleton _ _
  | first :: others, ascending => by
      obtain ⟨before, ascends⟩ := List.pairwise_cons.1 ascending
      unfold insertName
      split
      · next smaller =>
        refine List.pairwise_cons.2 ⟨fun other mem => ?_, ascending⟩
        rcases List.mem_cons.1 mem with rfl | mem
        · exact smaller
        · exact String.lt_trans smaller (before other mem)
      · next notSmaller =>
        split
        · exact ascending
        · next differs =>
          have larger : first < name := by
            by_contra notLarger
            exact differs (String.le_antisymm (String.not_lt.1 notLarger) (String.not_lt.1 notSmaller))
          refine List.pairwise_cons.2 ⟨fun other mem => ?_, pairwise_insertName name ascends⟩
          rcases mem_insertName.1 mem with rfl | mem
          · exact larger
          · exact before other mem

theorem pairwise_freeSymbols (e : Expr α) : e.freeSymbols.Pairwise (· < ·) := by
  unfold freeSymbols
  induction e.symbols with
  | nil => exact List.Pairwise.nil
  | cons name names ascending => exact pairwise_insertName name ascending

/-- The name is the first in order of the free symbols besides the variable. -/
structure FirstOther (e : Expr α) (var other : String) : Prop where
  free : other ∈ e.freeSymbols
  differs : other ≠ var
  least : ∀ name ∈ e.freeSymbols, name ≠ var → name = other ∨ other < name

theorem FirstOther.unique {e : Expr α} {var other other' : String} (first : e.FirstOther var other)
    (first' : e.FirstOther var other') : other = other' := by
  rcases first'.least other first.free first.differs with same | behind
  · exact same
  · rcases first.least other' first'.free first'.differs with same | behind'
    · exact same.symm
    · exact absurd (String.lt_trans behind behind') (String.lt_irrefl other')

/-- The search from the front ends at the first of the other symbols. -/
theorem firstOther_of_find? {e : Expr α} {var other : String}
    (found : e.freeSymbols.find? (· != var) = some other) : e.FirstOther var other := by
  obtain ⟨differs, before, after, parts, passed⟩ := List.find?_eq_some_iff_append.1 found
  refine ⟨List.mem_of_find?_eq_some found, by simpa using differs, fun name mem apart => ?_⟩
  have ascending := pairwise_freeSymbols e
  rw [parts] at mem ascending
  rcases List.mem_append.1 mem with front | back
  · exact absurd (passed name front) (by simpa using apart)
  · rcases List.mem_cons.1 back with same | behind
    · exact .inl same
    · exact .inr (List.rel_of_pairwise_cons (List.pairwise_append.1 ascending).2.1 behind)

theorem exists_firstOther {e : Expr α} {var name : String} (free : name ∈ e.freeSymbols)
    (differs : name ≠ var) :
    ∃ other, e.freeSymbols.find? (· != var) = some other ∧ e.FirstOther var other := by
  cases found : e.freeSymbols.find? (· != var) with
  | none => exact absurd (List.find?_eq_none.1 found name free) (by simpa using differs)
  | some other => exact ⟨other, rfl, firstOther_of_find? found⟩

theorem FirstOther.find? {e : Expr α} {var other : String} (first : e.FirstOther var other) :
    e.freeSymbols.find? (· != var) = some other := by
  obtain ⟨other', found, first'⟩ := exists_firstOther first.free first.differs
  rw [found, first'.unique first]

/-! ### The function of an expression without calls -/

/-- An expression without calls describes a function. -/
theorem exists_function [Scalar α] (unit : AngleUnit) : ∀ {e : Expr α}, e.CallFree →
    ∃ f, e.function unit = .ok f
  | number _, _ | symbol _, _ => ⟨_, rfl⟩
  | neg operand, calls => by
      obtain ⟨f, inner⟩ := exists_function unit (e := operand) calls
      rw [function, inner]
      exact ⟨_, rfl⟩
  | apply elementary operand, calls => by
      obtain ⟨f, inner⟩ := exists_function unit (e := operand) calls
      rw [function, inner]
      exact ⟨_, rfl⟩
  | binary op left right, calls => by
      obtain ⟨callsLeft, callsRight⟩ := calls.of_binary
      obtain ⟨f, first⟩ := exists_function unit callsLeft
      obtain ⟨g, second⟩ := exists_function unit callsRight
      rw [function, first, second]
      exact ⟨_, rfl⟩
  | call name arguments, calls => nomatch calls

end Expr

namespace Compiled

/-! ### What is prepared -/

section Prepared

variable [Numeral α] {text var : String} {options : CompileOptions} {e : Expr α} {failure : Failure α}

theorem prepare_eq_ok_iff : prepare text options = .ok e ↔ Origin text options e := by
  refine ⟨origin_of_prepare, ?_⟩
  rintro ⟨read, resolved, parsed, resolves, last⟩
  unfold prepare
  simp only [parsed, resolves]
  split at last
  · next asked => simp only [asked, if_true, last]
  · next asIs => simp only [asIs, Bool.false_eq_true, if_false, last]

theorem prepare_eq_error_iff :
    prepare text options = .error failure ↔ Unprepared options.simplify text failure := by
  constructor
  · intro failed
    unfold prepare at failed
    split at failed
    · next fault read =>
      cases failed
      exact .unread read
    · next e read =>
      split at failed
      · next cause resolved =>
        cases failed
        exact .unresolved read resolved
      · next r resolved =>
        split at failed
        · next asked =>
          split at failed
          · next limit simplified =>
            cases failed
            exact .unsettled asked read resolved simplified
          · cases failed
        · cases failed
  · intro unprepared
    unfold prepare
    cases unprepared with
    | unread read => simp only [read]
    | unresolved read resolved => simp only [read, resolved]
    | unsettled asked read resolved simplified => simp only [read, resolved, asked, if_true, simplified]

/-- What is prepared has no call at any depth. -/
theorem callFree_of_origin (origin : Origin text options e) : e.CallFree := by
  obtain ⟨read, resolved, parsed, resolves, last⟩ := origin
  have calls := Expr.callFree_of_resolve parsed resolves
  split at last
  · exact calls.simplify last
  · exact last ▸ calls

/-! ### What is made into a function -/

/-- A prepared expression without other variables is made into a function. -/
theorem exists_ofText (origin : Origin text options e) (only : ∀ name ∈ e.freeSymbols, name = var) :
    ∃ compiled : Compiled α, ofText text var options = .ok compiled := by
  have none_ : e.freeSymbols.find? (· != var) = none :=
    List.find?_eq_none.2 fun name free => by simpa using only name free
  obtain ⟨f, makes⟩ := Expr.exists_function options.unit (callFree_of_origin origin)
  rw [ofText, prepare_eq_ok_iff.2 origin]
  simp only [none_, makes]
  exact ⟨_, rfl⟩

/-- Another variable in a prepared expression is not defined. -/
theorem ofText_of_firstOther {other : String} (origin : Origin text options e)
    (first : e.FirstOther var other) : (ofText text var options : Except (Failure α) (Compiled α)) =
      .error (.ofEvaluation (.undefinedVariable other [var])) := by
  rw [ofText, prepare_eq_ok_iff.2 origin]
  simp only [first.find?]

/-- A text is turned away if it is not prepared, or else for another variable in it. -/
theorem ofText_eq_error_iff :
    (ofText text var options : Except (Failure α) (Compiled α)) = .error failure ↔
      Unprepared options.simplify text failure ∨
        ∃ (e : Expr α) (other : String), Origin text options e ∧ e.FirstOther var other ∧
          failure = .ofEvaluation (.undefinedVariable other [var]) := by
  constructor
  · intro failed
    cases prepared : (prepare text options : Except (Failure α) (Expr α)) with
    | error failure' =>
      rw [ofText, prepared] at failed
      cases failed
      exact .inl (prepare_eq_error_iff.1 prepared)
    | ok e =>
      have origin := prepare_eq_ok_iff.1 prepared
      by_cases only : ∀ name ∈ e.freeSymbols, name = var
      · obtain ⟨compiled, made⟩ := exists_ofText origin only
        cases made.symm.trans failed
      · push Not at only
        obtain ⟨name, free, differs⟩ := only
        obtain ⟨other, -, first⟩ := Expr.exists_firstOther free differs
        cases (ofText_of_firstOther origin first).symm.trans failed
        exact .inr ⟨e, other, origin, first, rfl⟩
  · rintro (unprepared | ⟨e, other, origin, first, rfl⟩)
    · rw [ofText, prepare_eq_error_iff.2 unprepared]
    · exact ofText_of_firstOther origin first

end Prepared

/-! ### Machine numbers -/

section Texts

variable {text var : String} {options : CompileOptions}

/-- Every symbol of what is prepared is a name in the text. -/
theorem exists_token_of_origin {e : Expr Double} {name : String} (origin : Origin text options e)
    (mem : name ∈ e.symbols) : ∃ token ∈ tokenize text, token.kind = .name ∧ token.lexeme = name := by
  obtain ⟨read, resolved, parsed, resolves, last⟩ := origin
  have formed := Expr.wellFormed_of_resolved parsed resolves
  refine Expr.exists_token_of_resolved parsed resolves ?_
  split at last
  · exact formed.symbols_simplify last mem
  · exact last ▸ mem

/-- What is accepted as it is, is accepted simplified too, if it can be simplified. -/
theorem accepted_simplified {compiled : Compiled Double}
    (made : ofText text var { options with simplify := false } = .ok compiled) :
    (∃ simplified : Compiled Double,
        ofText text var { options with simplify := true } = .ok simplified) ∨
      ∃ limit : PassLimit Double,
        (ofText text var { options with simplify := true } : Except _ (Compiled Double)) =
          .error (.ofPassLimit limit) := by
  obtain ⟨-, ⟨read, resolved, parsed, resolves, asIs⟩, only, -⟩ := origin_of_ofText made
  cases simplified : resolved.simplify with
  | error limit =>
    exact .inr ⟨limit, ofText_eq_error_iff.2 (.inl (.unsettled rfl parsed resolves simplified))⟩
  | ok s =>
    have formed := Expr.wellFormed_of_resolved parsed resolves
    refine .inl (exists_ofText ⟨read, resolved, parsed, resolves, simplified⟩ fun name free => ?_)
    refine only name ?_
    rw [← show resolved = compiled.expr from asIs]
    exact formed.symbols_simplify simplified (Expr.mem_freeSymbols.1 free)

/-- A text is made into no function of a variable only for a reason of its own: it stands for no
    expression, or a call in it cannot be carried out, or the simplifier has been asked for and reaches its
    limit, or what has been prepared has another variable in it. In the last case the first of the others
    in order is the one that is not defined, and each of them is a name in the text. No call is left over
    to be blamed; and what is made into a function without simplification is made into one with it, unless
    the simplifier reaches its limit. -/
theorem refused_only_for (text var : String) (options : CompileOptions) :
    (∀ failure : Failure Double, ofText text var options = .error failure ↔
      Unprepared options.simplify text failure ∨
        ∃ (e : Expr Double) (other : String), Origin text options e ∧ e.FirstOther var other ∧
          failure = .ofEvaluation (.undefinedVariable other [var])) ∧
    (∀ (e : Expr Double) (name : String), Origin text options e → name ∈ e.freeSymbols → name ≠ var →
      (∃ token ∈ tokenize text, token.kind = .name ∧ token.lexeme = name) ∧
        ∃ other, e.FirstOther var other ∧ (ofText text var options : Except _ (Compiled Double)) =
          .error (.ofEvaluation (.undefinedVariable other [var]))) ∧
    (∀ failure : Failure Double, ofText text var options = .error failure →
      failure.cause ≠ .evaluation .unresolvedIntegral ∧
        ∀ name, failure.cause ≠ .evaluation (.unresolvedCall name)) ∧
    ∀ compiled : Compiled Double, ofText text var { options with simplify := false } = .ok compiled →
      (∃ simplified : Compiled Double,
          ofText text var { options with simplify := true } = .ok simplified) ∨
        ∃ limit : PassLimit Double,
          (ofText text var { options with simplify := true } : Except _ (Compiled Double)) =
            .error (.ofPassLimit limit) := by
  refine ⟨fun _ => ofText_eq_error_iff, fun e name origin free differs => ?_, fun failure failed => ?_,
    fun _ => accepted_simplified⟩
  · obtain ⟨other, -, first⟩ := Expr.exists_firstOther free differs
    exact ⟨exists_token_of_origin origin (Expr.mem_freeSymbols.1 free), other, first,
      ofText_of_firstOther origin first⟩
  · rcases ofText_eq_error_iff.1 failed with unprepared | ⟨e, other, -, -, rfl⟩
    · exact ⟨unprepared.cause_ne _, fun name => unprepared.cause_ne _⟩
    · exact ⟨by rintro ⟨⟩, by rintro _ ⟨⟩⟩

/-- The integral of `y` by `x` is a function of two variables. Of `x` alone it is none, and `y` is to blame;
    the integral of `y` by `y` is a function of `y`, simplified or not. -/
theorem refused_only_for_integral :
    let area : Expr Double := .symbol "y" * .symbol "x"
    let failure : Failure Double := .ofEvaluation (.undefinedVariable "y" ["x"])
    Origin "int(y, x)" {} area ∧ area.FirstOther "x" "y" ∧
      ofText "int(y, x)" "x" {} = .error failure ∧
      (∃ token ∈ tokenize "int(y, x)", token.kind = .name ∧ token.lexeme = "y") ∧
      failure.cause ≠ .evaluation .unresolvedIntegral ∧
      ∃ compiled : Compiled Double, ofText "int(y, y)" "y" { simplify := false } = .ok compiled ∧
        ((∃ simplified : Compiled Double, ofText "int(y, y)" "y" {} = .ok simplified) ∨
          ∃ limit : PassLimit Double,
            (ofText "int(y, y)" "y" {} : Except _ (Compiled Double)) = .error (.ofPassLimit limit)) := by
  intro area failure
  let byX : Expr Double := .call integralName [.symbol "y", .symbol "x"]
  let byY : Expr Double := .call integralName [.symbol "y", .symbol "y"]
  let two : Expr Double := .ofNat 2
  let square : Expr Double := .symbol "y" ^ two / two
  have x : Token.IsIdentifier "x" := (Token.isIdentifier_iff "x").2 ⟨'x', [], rfl, rfl, by simp⟩
  have y : Token.IsIdentifier "y" := (Token.isIdentifier_iff "y").2 ⟨'y', [], rfl, rfl, by simp⟩
  have origin : Origin "int(y, x)" {} area := by
    have formed : byX.WellFormed := .call rfl (.symbol ⟨y, rfl⟩) ⟨x, rfl⟩
    refine ⟨byX, area, formed.printable.parse_text fun value mem => (nomatch mem), ?_, rfl⟩
    simp only [byX, Expr.resolve_call, Expr.resolveAll_cons, Expr.resolveAll_nil, Expr.resolve_symbol]
    exact Expr.antiderivative_symbol "y" "x"
  have first : area.FirstOther "x" "y" := by
    have free : area.freeSymbols = ["x", "y"] := by decide +kernel
    refine ⟨by simp [free], by decide, fun name mem differs => .inl ?_⟩
    simpa [free, differs] using mem
  have origin' : Origin "int(y, y)" { simplify := false } square := by
    have formed : byY.WellFormed := .call rfl (.symbol ⟨y, rfl⟩) ⟨y, rfl⟩
    refine ⟨byY, square, formed.printable.parse_text fun value mem => (nomatch mem), ?_, rfl⟩
    simp only [byY, Expr.resolve_call, Expr.resolveAll_cons, Expr.resolveAll_nil, Expr.resolve_symbol]
    exact Expr.antiderivative_symbol "y" "y"
  obtain ⟨exactly, others, leftover, -⟩ := refused_only_for "int(y, x)" "x" {}
  obtain ⟨-, -, -, accepted⟩ := refused_only_for "int(y, y)" "y" {}
  have refused := (exactly failure).2 (.inr ⟨area, "y", origin, first, rfl⟩)
  have only : ∀ name ∈ square.freeSymbols, name = "y" := by decide +kernel
  obtain ⟨compiled, made⟩ := exists_ofText origin' only
  exact ⟨origin, first, refused, (others area "y" origin first.free first.differs).1,
    (leftover failure refused).1, compiled, made, accepted compiled made⟩

end Texts

end Compiled

end SymbolicCalculus
