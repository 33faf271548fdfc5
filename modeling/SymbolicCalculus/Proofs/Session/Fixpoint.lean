/-
Module: SymbolicCalculus.Proofs.Session.Fixpoint
Layer: Proofs
Purpose: What a session answers can be given to it as a line, and it answers the same. An expression that
  is printed is well formed, has no calls and is at rest. Its text is no command and reads back as the
  expression with its negative numbers taken apart; there is no call to carry out in it, and the first pass
  of simplification restores it.
Main exports: BeginsFormula, Expr.Printable.beginsFormula, Double.refolds, Expr.Final,
  Expr.final_of_simplify, Session.run_eval, Session.run_answer
-/
import SymbolicCalculus.Proofs.Calculus.Preparation
import SymbolicCalculus.Proofs.Double.Writing
import SymbolicCalculus.Proofs.Session.Frame
import SymbolicCalculus.Proofs.Simplify.Restoration

namespace SymbolicCalculus

/-! ### How a text begins -/

theorem code_of_isNameChar {c : Char} (goesOn : isNameChar c = true) :
    48 ≤ c.toNat ∧ c.toNat ≤ 122 := by
  simp only [isNameChar, Char.isAlphanum, Char.isAlpha, Char.isUpper, Char.isLower, Char.isDigit,
    Bool.or_eq_true, Bool.and_eq_true, decide_eq_true_eq, beq_iff_eq, ge_iff_le,
    UInt32.le_iff_toNat_le] at goesOn
  change 48 ≤ c.val.toNat ∧ c.val.toNat ≤ 122
  rcases goesOn with ((⟨low, high⟩ | ⟨low, high⟩) | ⟨low, high⟩) | rfl
  · exact ⟨Nat.le_trans (by decide) low, Nat.le_trans high (by decide)⟩
  · exact ⟨Nat.le_trans (by decide) low, Nat.le_trans high (by decide)⟩
  · exact ⟨low, Nat.le_trans high (by decide)⟩
  · decide

theorem isBlank_of_isNameChar {c : Char} (goesOn : isNameChar c = true) : isBlank c = false := by
  cases blank : isBlank c with
  | false => rfl
  | true =>
    obtain ⟨range, mem, low, high⟩ := (CodeRanges.has_iff blankRanges c).1 blank
    obtain ⟨first, last⟩ := code_of_isNameChar goesOn
    have apart : ∀ range ∈ blankRanges, range.2 < 48 ∨ 122 < range.1 := by decide
    rcases apart range mem with below | above <;> omega

/-- The text begins like that of an expression, neither blank nor with the colon of a command. -/
def BeginsFormula (text : String) : Prop :=
  ∃ c cs, text.toList = c :: cs ∧ isBlank c = false ∧ c ≠ ':'

theorem BeginsFormula.append {text : String} (begins : BeginsFormula text) (rest : String) :
    BeginsFormula (text ++ rest) := by
  obtain ⟨c, cs, first, filled, noColon⟩ := begins
  exact ⟨c, cs ++ rest.toList, by rw [String.toList_append, first, List.cons_append], filled, noColon⟩

theorem beginsFormula_of_isNameChar {text : String} {c : Char} {cs : List Char}
    (first : text.toList = c :: cs) (goesOn : isNameChar c = true) : BeginsFormula text := by
  refine ⟨c, cs, first, isBlank_of_isNameChar goesOn, ?_⟩
  rintro rfl
  exact absurd goesOn (by decide)

theorem beginsFormula_of_isIdentifier {name : String} (identifier : Token.IsIdentifier name) :
    BeginsFormula name := by
  obtain ⟨c, cs, first, starts, -⟩ := (Token.isIdentifier_iff name).1 identifier
  exact beginsFormula_of_isNameChar first (isNameChar_of_isNameStart starts)

theorem beginsFormula_of_isNumeral {text : String} (numeral : Token.IsNumeral text.toList) :
    BeginsFormula text := by
  obtain ⟨whole, fraction, filled, digits, form⟩ := numeral
  obtain ⟨d, ds, rfl⟩ := List.exists_cons_of_ne_nil filled
  have digit : isNameChar d = true := isNameChar_of_isDigit (digits d (by simp))
  rcases form with form | form
  · exact beginsFormula_of_isNameChar form digit
  · exact beginsFormula_of_isNameChar form digit

theorem beginsFormula_minus (rest : String) : BeginsFormula ("-" ++ rest) :=
  BeginsFormula.append ⟨'-', [], rfl, by decide, by decide⟩ rest

theorem beginsFormula_parenthesize {text : String} (needed : Bool) (begins : BeginsFormula text) :
    BeginsFormula (Expr.parenthesize needed text) := by
  cases needed with
  | false => exact begins
  | true =>
    have opens : BeginsFormula "(" := ⟨'(', [], rfl, by decide, by decide⟩
    exact (opens.append text).append ")"

namespace Expr

variable {α : Type} [Numeral α]

theorem beginsFormula_number {value : α} (written : WrittenWithSign value) :
    BeginsFormula (Numeral.text value) := by
  unfold WrittenWithSign at written
  split at written
  · rw [written.1]
    exact beginsFormula_minus _
  · exact beginsFormula_of_isNumeral written.1

/-- The text of an expression begins like one. -/
theorem Printable.beginsFormula {e : Expr α} (printable : e.Printable)
    (written : ∀ value ∈ e.numbers, WrittenWithSign value) : BeginsFormula e.text := by
  induction printable with
  | number => exact beginsFormula_number (written _ (List.mem_singleton_self _))
  | symbol identifier => exact beginsFormula_of_isIdentifier identifier
  | neg => exact beginsFormula_minus _
  | @apply function =>
    have name := beginsFormula_of_isIdentifier (Grammar.isIdentifier_name function)
    exact ((name.append _).append _).append _
  | binary _ _ first =>
    have left := first fun value mem => written value (List.mem_append_left _ mem)
    exact ((beginsFormula_parenthesize _ left).append _).append _
  | call operation =>
    have name := beginsFormula_of_isIdentifier (Grammar.isIdentifier_of_isOperationName operation)
    exact ((name.append _).append _).append _

end Expr

/-- A line that begins like an expression is a formula. -/
theorem Command.parse_of_beginsFormula {line : String} (begins : BeginsFormula line) :
    Command.parse line = .ok (.eval ⟨line, 0⟩) := by
  obtain ⟨c, cs, first, filled, noColon⟩ := begins
  have stays : line.toList.dropWhile isBlank = c :: cs := by
    rw [first, List.dropWhile_cons_of_neg (by simp [filled])]
  unfold Command.parse
  simp only [stays]
  split
  · next same => exact absurd (List.cons.inj same).1 noColon
  · rfl

/-! ### Machine numbers -/

namespace Double

/-- A number with a minus sign is folded back from the sign and the rest. -/
theorem refolds {x : Double} (plain : Plain x) : Expr.Refolds x := by
  intro _
  rw [neg_neg plain.1, Rule.finite?, if_pos plain.1, Rule.computed, add_zero_of_plain plain]

end Double

namespace Expr

/-! ### Expressions that are printed -/

theorem number_of_madeOf {α : Type} {Number : α → Prop} {Name : String → Prop} {e : Expr α}
    (made : e.MadeOf Number Name) : ∀ value ∈ e.numbers, Number value := by
  induction made with
  | number fits =>
    intro value mem
    rw [List.mem_singleton.1 mem]
    exact fits
  | symbol => rintro _ ⟨⟩
  | neg _ inner => exact inner
  | apply _ inner => exact inner
  | binary _ _ left right =>
    intro value mem
    rcases List.mem_append.1 mem with front | back
    · exact left value front
    · exact right value back
  | call _ _ _ inner =>
    intro value mem
    exact inner value (by simpa [numbers, numbersOfAll] using mem)

/-- An expression with which a session answers: it has no call left in it, and no rule applies to it. -/
structure Final (e : Expr Double) : Prop where
  formed : e.WellFormed
  noCall : e.callDepth = 0
  rest : e.AtRest

/-- The digits of the numbers in an expression read back. Only magnitudes are written with digits. -/
def DigitsReadBack (e : Expr Double) : Prop :=
  ∀ value ∈ e.numbers, Double.ofLiteral? value.magnitude.text = some value.magnitude

/-- What was read from a text, resolved and simplified can be answered. -/
theorem final_of_simplify {text : String} {e resolved s : Expr Double} (read : parse text = .ok e)
    (resolves : e.resolve = .ok resolved) (simplifies : resolved.simplify = .ok s) : s.Final := by
  have formed := wellFormed_of_resolved read resolves
  exact ⟨Step.wellFormed (.simplify simplifies) formed,
    (callFree_of_resolve read resolves).simplify simplifies, atRest_of_simplify simplifies⟩

namespace Final

variable {s : Expr Double} (final : s.Final)
include final

theorem writtenWithSign (readsBack : s.DigitsReadBack) : ∀ value ∈ s.numbers, WrittenWithSign value :=
  fun value mem =>
    Double.writtenWithSign (final.formed.printable.isFinite value mem) (readsBack value mem)

theorem parse_text (readsBack : s.DigitsReadBack) : parse s.text = .ok s.norm :=
  final.formed.printable.parse_text (final.writtenWithSign readsBack)

theorem resolve_norm : s.norm.resolve = .ok s.norm :=
  resolve_of_callDepth (callDepth_norm final.noCall)

theorem simplify_norm : s.norm.simplify = .ok s :=
  Expr.simplify_norm final.rest fun value mem =>
    Double.refolds (number_of_madeOf final.formed value mem)

end Final

end Expr

namespace Session

/-! ### Answers as lines -/

section Answers

variable {α : Type} [Numeral α] {session : Session α} {formula : Argument} {s : Expr α}
  {line text : String}

/-- The formula is simplified to the expression, with its calls carried out before. -/
def Simplifies (formula : Argument) (s : Expr α) : Prop :=
  ∃ e, prepare formula = .ok e ∧ e.simplify = .ok s

theorem evaluated_eq_ok_iff :
    session.evaluated formula = .ok text ↔
      ∃ s, Simplifies formula s ∧ answer session.context s = .ok text := by
  unfold evaluated Simplifies
  constructor
  · intro evaluated
    split at evaluated
    · cases evaluated
    · next e prepared =>
      split at evaluated
      · cases evaluated
      · next s simplifies => exact ⟨s, ⟨e, prepared, simplifies⟩, evaluated⟩
  · rintro ⟨s, ⟨e, prepared, simplifies⟩, answers⟩
    simp only [prepared, simplifies, answers]

/-- An expression is answered with its text, or with its text and its value. -/
theorem text_of_answer {context : Context α} (answers : answer context s = .ok text) :
    text = s.text ∨ ∃ value, s.evaluate context = .ok value ∧ text = equation s.text value := by
  unfold answer at answers
  split at answers
  · cases answers
    exact .inl rfl
  · split at answers
    · split at answers
      · next value has =>
        cases answers
        exact .inr ⟨value, has, rfl⟩
      · cases answers
    · cases answers
      exact .inl rfl

/-- A line with a formula leaves the session as it is. -/
theorem run_eval (parsed : Command.parse line = .ok (.eval formula)) :
    session.run line = (session.evaluated formula).map fun text => (text, session) := by
  rw [run_eq, after_of_forgets parsed rfl, answerTo, outcome_eq, parsed]
  rfl

end Answers

/-- A formula is simplified to one expression. -/
theorem Simplifies.unique {α : Type} [Numeral α] {formula : Argument} {s s' : Expr α}
    (simplifies : Simplifies formula s) (simplifies' : Simplifies formula s') : s = s' := by
  obtain ⟨e, prepared, done⟩ := simplifies
  obtain ⟨e', prepared', done'⟩ := simplifies'
  rw [prepared] at prepared'
  cases prepared'
  rw [done] at done'
  cases done'
  rfl

theorem Simplifies.final {formula : Argument} {s : Expr Double} (simplifies : Simplifies formula s) :
    s.Final := by
  obtain ⟨resolved, prepared, simplified⟩ := simplifies
  unfold prepare at prepared
  split at prepared
  · cases prepared
  · next e read =>
    split at prepared
    · cases prepared
    · next resolves =>
      cases prepared
      exact Expr.final_of_simplify read resolves simplified

/-- The text of an expression that was answered is simplified to that expression. -/
theorem simplifies_text {s : Expr Double} (final : s.Final) (readsBack : s.DigitsReadBack) :
    Simplifies ⟨s.text, 0⟩ s := by
  refine ⟨s.norm, ?_, final.simplify_norm⟩
  unfold prepare
  simp only [final.parse_text readsBack, final.resolve_norm]

/-- The printed expression of an answer is a line with the same answer. Every answer to a formula is the
    text of its simplified expression, alone or with the value behind it; given as a line in the same
    session, this text has exactly the same answer. So has any text that was read, resolved, simplified and
    printed: what it reads back as is simplified to the very expression that was printed. What is assumed is
    only that the digits of the numbers in it read back. -/
theorem run_answer :
    (∀ (session next : Session Double) (line text : String) (formula : Argument),
      Command.parse line = .ok (.eval formula) → session.run line = .ok (text, next) →
        next = session ∧ ∃ s, Simplifies formula s ∧
          (text = s.text ∨
            ∃ value, s.evaluate session.context = .ok value ∧ text = equation s.text value) ∧
          (s.DigitsReadBack → session.run s.text = .ok (text, session))) ∧
    ∀ (text : String) (e resolved s : Expr Double),
      Expr.parse text = .ok e → e.resolve = .ok resolved → resolved.simplify = .ok s →
        s.DigitsReadBack → ∃ read, Expr.parse s.text = .ok read ∧ read.simplify = .ok s := by
  constructor
  · intro session next line text formula parsed ran
    rw [run_eval parsed] at ran
    obtain ⟨text', evaluated, pair⟩ := map_eq_ok_iff.1 ran
    cases pair
    obtain ⟨s, simplifies, answers⟩ := evaluated_eq_ok_iff.1 evaluated
    refine ⟨rfl, s, simplifies, text_of_answer answers, fun readsBack => ?_⟩
    have final := simplifies.final
    have begins : BeginsFormula s.text :=
      final.formed.printable.beginsFormula (final.writtenWithSign readsBack)
    have again : session.evaluated ⟨s.text, 0⟩ = .ok text :=
      evaluated_eq_ok_iff.2 ⟨s, simplifies_text final readsBack, answers⟩
    rw [run_eval (Command.parse_of_beginsFormula begins), again]
    rfl
  · intro text e resolved s read resolves simplifies readsBack
    have final := Expr.final_of_simplify read resolves simplifies
    exact ⟨s.norm, final.parse_text readsBack, final.simplify_norm⟩

/-- With six for `y`, the constant of `y * (-2)` comes to the front, and the answer is read with a negated
    number in its place. -/
theorem run_answer_constantFirst :
    let session : Session Double := ⟨Context.empty.set "y" (.ofFloat 6)⟩
    session.run "y * (-2)" = .ok ("(-2) * y = -12", session) ∧
      session.run "(-2) * y" = .ok ("(-2) * y = -12", session) := by
  intro session
  let minusTwo : Expr Double := .number (-.ofFloat 2)
  let e : Expr Double := .symbol "y" * minusTwo
  let s : Expr Double := minusTwo * .symbol "y"
  have y : Token.IsIdentifier "y" := (Token.isIdentifier_iff "y").2 ⟨'y', [], rfl, rfl, by simp⟩
  have finite : Scalar.isFinite (-Double.ofFloat 2) = true := by decide +kernel
  have digits : Double.ofLiteral? (-Double.ofFloat 2).magnitude.text =
      some (-Double.ofFloat 2).magnitude := by decide +kernel
  have read : Expr.parse "y * (-2)" = .ok e.norm := by
    have printable : e.Printable := .binary (.symbol y rfl) (.number finite)
    have written : e.text = "y * (-2)" := by decide +kernel
    rw [← written]
    refine printable.parse_text fun value mem => ?_
    rw [List.mem_singleton.1 mem]
    exact Double.writtenWithSign finite digits
  have simplifies : Simplifies ⟨"y * (-2)", 0⟩ s := by
    have resolves : e.norm.resolve = .ok e.norm := Expr.resolve_of_callDepth rfl
    refine ⟨e.norm, ?_, rfl⟩
    rw [prepare, read]
    simp only [resolves]
  have answers : answer session.context s = .ok "(-2) * y = -12" := by
    have written : "(-2) * y = -12" = equation s.text (-Double.ofFloat 12) := by decide +kernel
    rw [written]
    rfl
  have parsed : Command.parse "y * (-2)" = .ok (.eval ⟨"y * (-2)", 0⟩) := by decide +kernel
  have ran : session.run "y * (-2)" = .ok ("(-2) * y = -12", session) := by
    rw [run_eval parsed, evaluated_eq_ok_iff.2 ⟨s, simplifies, answers⟩]
    rfl
  obtain ⟨-, s', simplifies', -, again⟩ := run_answer.1 _ _ _ _ _ parsed ran
  rw [← simplifies.unique simplifies'] at again
  have written : s.text = "(-2) * y" := by decide +kernel
  rw [written] at again
  refine ⟨ran, again fun value mem => ?_⟩
  rw [List.mem_singleton.1 mem]
  exact digits

end Session

end SymbolicCalculus
