/-
Module: SymbolicCalculus.Proofs.Session.Names
Layer: Proofs
Purpose: The names that can be given values are names that formulas read. A command looks at the characters
  of a name by itself; a formula reads it by way of the lexer, the grammar and the table of constants. They
  take the same names, except that those of functions and operations stand for variables in a formula where
  nothing is called, and cannot be given values.
Main exports: Token.IsIdentifier.tokenize_eq, Expr.parse_eq_symbol_iff, isBindable_iff,
  Command.isBindable_of_assign, Command.parse_let, Session.run_variable, Session.bound_name_is_readable
-/
import SymbolicCalculus.Proofs.Session.Formulas

namespace SymbolicCalculus

/-! ### Names in formulas -/

/-- A name is one token as a whole. -/
theorem Token.IsIdentifier.tokenize_eq {name : String} (identifier : Token.IsIdentifier name) :
    tokenize name = [⟨.name, ⟨0, utf8Length name.toList⟩, name⟩] := by
  have single := tokensFrom_identifier 0 identifier apart_nil
  rw [List.append_nil, tokenAt, String.ofList_toList, Nat.zero_add, tokensFrom] at single
  exact single

namespace Expr

variable {α : Type} [Numeral α] {name : String}

theorem parse_of_isVariable (variable_ : IsVariable name) : parse name = .ok (.symbol name : Expr α) :=
  (Grammar.Reads.symbol variable_.1 variable_.2).parse

/-- A text stands for the symbol of the same name if and only if it can be a variable. -/
theorem parse_eq_symbol_iff : parse name = .ok (.symbol name : Expr α) ↔ IsVariable name := by
  refine ⟨fun read => ?_, parse_of_isVariable⟩
  have made : (symbol name : Expr α).MadeOf (fun _ => True) IsVariable :=
    madeOf_parse trivial trivial (fun _ _ _ => trivial) read
  cases made with
  | symbol variable_ => exact variable_

end Expr

/-! ### Names in commands -/

/-- What can be given a value is a variable whose name is not that of a function or an operation. -/
theorem isBindable_iff (name : String) :
    isBindable name = true ↔ Expr.IsVariable name ∧ Elementary.ofName? name = none ∧
      name ≠ integralName ∧ name ≠ derivativeName := by
  rw [Expr.IsVariable, Token.isIdentifier_iff, isBindable]
  cases name.toList <;> simp [and_assoc]

/-- All characters of a name are such as go on a name. -/
theorem Token.IsIdentifier.isNameChar {name : String} (identifier : Token.IsIdentifier name) :
    ∀ c ∈ name.toList, isNameChar c = true := by
  obtain ⟨c, cs, text, starts, goesOn⟩ := (Token.isIdentifier_iff name).1 identifier
  rw [text]
  exact List.forall_mem_cons.2 ⟨isNameChar_of_isNameStart starts, goesOn⟩

theorem trim_between_blanks {cs : List Char} (filled : ∀ c ∈ cs, isBlank c = false) :
    trim (' ' :: (cs ++ [' '])) = cs := by
  have stays (word : List Char) (same : ∀ c ∈ word, c ∈ cs) : word.dropWhile isBlank = word :=
    List.dropWhile_eq_self_iff.2 fun some => by simp [filled _ (same _ (List.getElem_mem some))]
  cases cs with
  | nil => rfl
  | cons c cs =>
    have left : trimLeft (' ' :: (c :: cs ++ [' '])) = c :: cs ++ [' '] := by
      rw [trimLeft, List.dropWhile_cons_of_pos (by decide), List.cons_append,
        List.dropWhile_cons_of_neg (by simp [filled c List.mem_cons_self])]
    rw [trim, left, trimRight, List.reverse_append, List.reverse_singleton, List.singleton_append,
      List.dropWhile_cons_of_pos (by decide), stays _ fun _ => List.mem_reverse.1, List.reverse_reverse]

/-- The name of a variable without the white space around it. -/
theorem Token.IsIdentifier.trimmed_eq {name : String} (identifier : Token.IsIdentifier name)
    (offset : Nat) :
    Argument.trimmed ⟨String.ofList (' ' :: (name.toList ++ [' '])), offset⟩ = ⟨name, offset + 1⟩ := by
  have filled : ∀ c ∈ name.toList, isBlank c = false :=
    fun c mem => isBlank_of_isNameChar (identifier.isNameChar c mem)
  obtain ⟨c, cs, text, starts, -⟩ := (Token.isIdentifier_iff name).1 identifier
  have indent : (' ' :: (name.toList ++ [' '])).takeWhile isBlank = [' '] := by
    rw [List.takeWhile_cons_of_pos (by decide), text, List.cons_append,
      List.takeWhile_cons_of_neg (by simp [filled c (text ▸ List.mem_cons_self)])]
  rw [Argument.trimmed]
  dsimp only
  rw [String.toList_ofList, trim_between_blanks filled, String.ofList_toList, indent]
  rfl

namespace Command

/-- Only such a name is given a value. -/
theorem isBindable_of_assign {line : String} {name value : Argument}
    (parsed : parse line = .ok (.assign name value)) : isBindable name.text = true := by
  cases takenFor_of_parse parsed with
  | assign bindable => exact bindable

/-- What stands on the two sides of the first equals sign is taken apart. -/
theorem parseAssignment_of_isBindable {name value : String} (place : Span) (offset : Nat)
    (bindable : isBindable name = true) (filled : value.toList.all isBlank = false) :
    parseAssignment place ⟨" " ++ name ++ " =" ++ value, offset⟩ =
      .ok (.assign ⟨name, offset + 1⟩ ⟨value, utf8Length name.toList + offset + 3⟩) := by
  have identifier := ((isBindable_iff name).1 bindable).1.1
  have sides : (" " ++ name ++ " =" ++ value).toList =
      ' ' :: (name.toList ++ [' ']) ++ '=' :: value.toList := by simp
  have noSign : ∀ c ∈ ' ' :: (name.toList ++ [' ']), (c != '=') = true := by
    refine List.forall_mem_cons.2 ⟨rfl, List.forall_mem_append.2 ⟨fun c mem => ?_,
      List.forall_mem_singleton.2 rfl⟩⟩
    rw [bne_iff_ne]
    rintro rfl
    exact absurd (identifier.isNameChar _ mem) (by decide)
  have before : (" " ++ name ++ " =" ++ value).toList.takeWhile (· != '=') =
      ' ' :: (name.toList ++ [' ']) := by
    rw [sides, List.takeWhile_append_of_pos noSign, List.takeWhile_cons_of_neg (by decide), List.append_nil]
  have behind : (" " ++ name ++ " =" ++ value).toList.dropWhile (· != '=') = '=' :: value.toList := by
    rw [sides, List.dropWhile_append_of_pos noSign, List.dropWhile_cons_of_neg (by decide)]
  have written : name.isEmpty = false := by
    obtain ⟨c, cs, text, -⟩ := (Token.isIdentifier_iff name).1 identifier
    rw [String.isEmpty_eq_false_iff]
    rintro rfl
    cases text
  have place : offset + utf8Length (' ' :: (name.toList ++ [' '])) + 1 =
      utf8Length name.toList + offset + 3 := by
    have blanks : utf8Length (' ' :: (name.toList ++ [' '])) = 1 + (utf8Length name.toList + 1) :=
      congrArg (1 + ·) (utf8Length_append _ _)
    omega
  unfold parseAssignment
  simp only [before, behind, identifier.trimmed_eq, written, Argument.isEmpty, String.ofList_toList, filled,
    bindable, if_true, Bool.or_false, Bool.false_eq_true, if_false, place]

/-- Behind the name of the command stand its arguments. -/
theorem parse_let (rest : String) :
    parse (":let " ++ rest) = parseAssignment ⟨0, 4⟩ ⟨" " ++ rest, 4⟩ := by
  have line : (":let " ++ rest).toList = ':' :: 'l' :: 'e' :: 't' :: ' ' :: rest.toList := by simp
  have given : " " ++ rest = String.ofList (' ' :: rest.toList) := by simp
  unfold parse
  rw [line, given]
  rfl

end Command

/-! ### Names in sessions -/

namespace Session

section Variables

variable {α : Type} [Numeral α] {session : Session α} {name : String} {w : α}

/-- A variable is answered with its value. -/
theorem run_variable (variable_ : Expr.IsVariable name) (bound : session.context.get? name = some w) :
    session.run name = .ok (equation name w, session) := by
  have parsed := Command.parse_of_beginsFormula (beginsFormula_of_isIdentifier variable_.1)
  have known : ¬StandsAlone session.context (.symbol name) := by
    rintro (⟨value, number⟩ | ⟨other, free, unbound⟩)
    · cases number
    · rw [List.mem_singleton.1 free, bound] at unbound
      cases unbound
  obtain ⟨-, answered⟩ := run_cases session parsed (Expr.parse_of_isVariable variable_)
    (Expr.resolve_symbol name) rfl
  obtain ⟨value, has, ran⟩ := answered known
  rw [Expr.evaluate, bound] at has
  cases has
  exact ran

/-- A number is found from its text, with the white space before it. -/
theorem valueOf_number (session : Session α) (offset : Nat) (reads : Expr.ReadsBack w) :
    session.valueOf ⟨" " ++ Numeral.text w, offset⟩ = .ok w := by
  have piece : Grammar.Reads .primary (" " ++ Numeral.text w).toList (.number w) := by
    rw [String.toList_append]
    exact Grammar.ReadsAs.blank (Grammar.Reads.numeral reads.1 reads.2)
  rw [valueOf, prepare]
  simp only [piece.parse, Expr.resolve_number]
  rfl

/-- The equation of a name and a number can be given to the session, and it answers it. -/
theorem run_let (session : Session α) (bindable : isBindable name = true) (reads : Expr.ReadsBack w) :
    session.run (":let " ++ equation name w) = .ok (equation name w, ⟨session.context.set name w⟩) := by
  have filled : (" " ++ Numeral.text w).toList.all isBlank = false := by
    obtain ⟨c, cs, first, visible, -⟩ := beginsFormula_of_isNumeral reads.1
    simp [first, visible]
  have sides : " " ++ equation name w = " " ++ name ++ " =" ++ (" " ++ Numeral.text w) := by
    rw [← String.toList_inj]
    simp [equation]
  have parsed : Command.parse (":let " ++ equation name w) =
      .ok (.assign ⟨name, 5⟩ ⟨" " ++ Numeral.text w, utf8Length name.toList + 7⟩) := by
    rw [Command.parse_let, sides]
    exact Command.parseAssignment_of_isBindable _ 4 bindable filled
  rw [run, outcome_of_assign parsed, valueOf_number session _ reads]

end Variables

theorem readsBack_one : Expr.ReadsBack (Double.ofFloat 1) :=
  ⟨⟨['1'], [], by decide, List.forall_mem_singleton.2 rfl, .inl (by decide +kernel)⟩, by decide +kernel⟩

/-- A name that has been given a value can be read. The name that a line gives a value is one name to the
    lexer and a symbol to a formula, and the line with nothing but this name, run next, is answered with the
    value. Conversely a text that stands for its own symbol can be given the value 1, unless it is the name
    of a function or of an operation; it is one name, since no other text stands for its symbol. -/
theorem bound_name_is_readable (session : Session Double) :
    (∀ line answer next name value, Command.parse line = .ok (.assign name value) →
      session.run line = .ok (answer, next) →
        ∃ w, session.valueOf value = .ok w ∧ answer = equation name.text w ∧
          tokenize name.text = [⟨.name, ⟨0, utf8Length name.text.toList⟩, name.text⟩] ∧
          Expr.parse name.text = .ok (.symbol name.text : Expr Double) ∧
          next.run name.text = .ok (equation name.text w, next)) ∧
    ∀ name : String, Expr.parse name = .ok (.symbol name : Expr Double) →
      Elementary.ofName? name = none → name ≠ integralName → name ≠ derivativeName →
        session.run (":let " ++ name ++ " = 1") =
          .ok (name ++ " = 1", ⟨session.context.set name (.ofFloat 1)⟩) := by
  constructor
  · intro line answer next name value parsed ran
    obtain ⟨variable_, -⟩ := (isBindable_iff name.text).1 (Command.isBindable_of_assign parsed)
    rw [run_eq, map_eq_ok_iff] at ran
    obtain ⟨text, answers, same⟩ := ran
    cases same
    obtain ⟨w, has, tells, bound, -⟩ := (frame session line).assigning name value answer parsed answers
    exact ⟨w, has, tells, variable_.1.tokenize_eq, Expr.parse_of_isVariable variable_,
      run_variable variable_ bound⟩
  · intro name read noFunction noIntegral noDerivative
    have bindable : isBindable name = true :=
      (isBindable_iff name).2 ⟨Expr.parse_eq_symbol_iff.1 read, noFunction, noIntegral, noDerivative⟩
    have written : equation name (Double.ofFloat 1) = name ++ " = 1" := by
      have text : Numeral.text (Double.ofFloat 1) = "1" := by decide +kernel
      rw [equation, text, String.append_assoc]
      rfl
    have ran := run_let session bindable readsBack_one
    rw [written, ← String.append_assoc] at ran
    exact ran

/-- A name with an underscore and a digit, which gets a value and is asked for it. -/
theorem bound_name_is_readable_underscore :
    let next : Session Double := ⟨Context.empty.set "x_1" (.ofFloat 1)⟩
    Expr.parse "x_1" = .ok (.symbol "x_1" : Expr Double) ∧
      Command.parse ":let x_1 = 1" = .ok (.assign ⟨"x_1", 5⟩ ⟨" 1", 10⟩) ∧
      (start : Session Double).run ":let x_1 = 1" = .ok ("x_1 = 1", next) ∧
      next.run "x_1" = .ok ("x_1 = 1", next) := by
  intro next
  have identifier : Token.IsIdentifier "x_1" :=
    (Token.isIdentifier_iff "x_1").2 ⟨'x', ['_', '1'], rfl, rfl, List.all_eq_true.1 (by decide)⟩
  have read : Expr.parse "x_1" = .ok (.symbol "x_1" : Expr Double) :=
    Expr.parse_of_isVariable ⟨identifier, rfl⟩
  have parsed : Command.parse ":let x_1 = 1" = .ok (.assign ⟨"x_1", 5⟩ ⟨" 1", 10⟩) := by decide +kernel
  obtain ⟨readable, bindable⟩ := bound_name_is_readable (start : Session Double)
  have ran : start.run ":let x_1 = 1" = .ok ("x_1 = 1", next) :=
    bindable "x_1" read rfl (by decide) (by decide)
  obtain ⟨w, -, tells, -, -, asked⟩ := readable _ _ _ _ _ parsed ran
  rw [← tells] at asked
  exact ⟨read, parsed, ran, asked⟩

end Session

end SymbolicCalculus
