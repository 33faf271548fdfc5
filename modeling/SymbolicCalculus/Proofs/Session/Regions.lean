/-
Module: SymbolicCalculus.Proofs.Session.Regions
Layer: Proofs
Purpose: Where in a line its arguments and its failures are. An argument is cut out of the line in steps,
  and every step takes a piece of a piece; so the places of an argument count from the beginning of the line,
  whatever stands before it. A failure is about the line itself, about a formula in it, or about nothing that
  was typed; the regions that a formula fails at are moved to where the formula stands.
Main exports: Argument.IsPieceOf, Argument.IsPieceOf.cut, Command.arguments, Command.formula?,
  Command.parse_pointsInto, Session.answerTo_of_formula, Session.failure_points_into_line
-/
import SymbolicCalculus.Proofs.Formula.FaultRegions
import SymbolicCalculus.Proofs.Session.Frame

namespace SymbolicCalculus

/-! ### Pieces of a line -/

/-- White space is taken off both ends. -/
theorem exists_trim (cs : List Char) : ∃ right, cs = cs.takeWhile isBlank ++ trim cs ++ right := by
  obtain ⟨right, left⟩ : trim cs <+: cs.dropWhile isBlank := List.rdropWhile_prefix isBlank _
  exact ⟨right, by rw [List.append_assoc, left, List.takeWhile_append_dropWhile]⟩

namespace Argument

/-- The argument is a piece of the line, and begins at its place. -/
def IsPieceOf (argument : Argument) (line : String) : Prop :=
  ∃ before after : List Char, line.toList = before ++ argument.text.toList ++ after ∧
    argument.offset = utf8Length before

/-- The whole line. -/
theorem isPieceOf_line (line : String) : IsPieceOf ⟨line, 0⟩ line := ⟨[], [], by simp, rfl⟩

namespace IsPieceOf

variable {argument : Argument} {line : String}

/-- A piece of the argument is a piece of the line, as far behind the argument's place as there is text
    of the argument before it. -/
theorem cut {middle back : List Char} {offset : Nat} (piece : argument.IsPieceOf line)
    (front : List Char) (pieces : argument.text.toList = front ++ middle ++ back)
    (behind : offset = argument.offset + utf8Length front) :
    IsPieceOf ⟨String.ofList middle, offset⟩ line := by
  obtain ⟨before, after, whole, place⟩ := piece
  refine ⟨before ++ front, back ++ after, ?_, by rw [behind, place, utf8Length_append]⟩
  rw [whole, pieces, String.toList_ofList]
  simp only [List.append_assoc]

theorem trimmed (piece : argument.IsPieceOf line) : argument.trimmed.IsPieceOf line := by
  obtain ⟨right, pieces⟩ := exists_trim argument.text.toList
  exact piece.cut _ pieces rfl

/-- The line has the argument in its region. -/
theorem isIn_and_slice (piece : argument.IsPieceOf line) :
    argument.span.IsIn line ∧ argument.span.slice line = argument.text := by
  obtain ⟨before, after, whole, place⟩ := piece
  rw [span, place, slice_of_pieces whole, String.ofList_toList]
  exact ⟨Span.isIn_of_pieces whole, rfl⟩

/-- The regions of the argument stand in the line as far behind its place as in the argument. -/
theorem shift_and_slice {region : Span} (piece : argument.IsPieceOf line)
    (inside : region.IsIn argument.text) :
    (region.shift argument.offset).IsIn line ∧
      (region.shift argument.offset).slice line = region.slice argument.text := by
  obtain ⟨before, after, whole, place⟩ := piece
  rw [place]
  exact inside.shift_and_slice whole

end IsPieceOf

end Argument

/-! ### Commands -/

namespace Command

/-- The arguments of a command. -/
def arguments : Command → List Argument
  | eval formula | steps formula => [formula]
  | assign name value => [name, value]
  | vars | measure _ => []

/-- The argument that is read as a formula, if there is one. -/
def formula? : Command → Option Argument
  | eval formula | assign _ formula | steps formula => some formula
  | vars | measure _ => none

theorem mem_arguments_of_formula? {command : Command} {argument : Argument}
    (reads : command.formula? = some argument) : argument ∈ command.arguments := by
  cases command <;> cases reads <;> simp [arguments]

/-- What a line is taken for points into it: the arguments of a command are pieces of the line, and what is
    blamed is a region of the line. -/
def PointsInto (line : String) : Except (Located CommandCause) Command → Prop
  | .ok command => ∀ argument ∈ command.arguments, argument.IsPieceOf line
  | .error fault => fault.span.IsIn line

variable {line : String}

/-- The name of a variable and its value stand on the two sides of an equals sign. -/
theorem parseAssignment_pointsInto {place : Span} {arguments : Argument} (known : place.IsIn line)
    (piece : arguments.IsPieceOf line) : PointsInto line (parseAssignment place arguments) := by
  unfold parseAssignment
  dsimp only
  split
  · exact known
  · next sign after behind =>
    obtain rfl : sign = '=' := by
      have stops := List.head?_dropWhile_not (· != '=') arguments.text.toList
      rw [behind] at stops
      simpa using stops
    have sides : arguments.text.toList =
        arguments.text.toList.takeWhile (· != '=') ++ '=' :: after := by
      rw [← behind, List.takeWhile_append_dropWhile]
    have name : (Argument.trimmed
        ⟨String.ofList (arguments.text.toList.takeWhile (· != '=')), arguments.offset⟩).IsPieceOf line :=
      (piece.cut [] sides rfl).trimmed
    have value : Argument.IsPieceOf ⟨String.ofList after,
        arguments.offset + utf8Length (arguments.text.toList.takeWhile (· != '=')) + 1⟩ line :=
      piece.cut (arguments.text.toList.takeWhile (· != '=') ++ ['='])
        (by rw [List.append_nil, ← List.append_cons, ← sides]) (by rw [utf8Length_append]; rfl)
    -- from here on it does not matter which pieces they are
    generalize Argument.trimmed _ = word at name ⊢
    generalize Argument.mk _ _ = formula at value ⊢
    split
    · exact known
    split
    · exact List.forall_mem_cons.2 ⟨name, List.forall_mem_singleton.2 value⟩
    · exact name.isIn_and_slice.1

/-- The indentation, the colon and the name of the command stand before the arguments. -/
theorem parse_pointsInto (line : String) : PointsInto line (parse line) := by
  unfold parse
  dsimp only
  split
  · next rest behind =>
    have whole : line.toList = line.toList.takeWhile isBlank ++
        (':' :: rest.takeWhile fun c => !isBlank c) ++ rest.dropWhile fun c => !isBlank c := by
      rw [List.append_assoc, List.cons_append, List.takeWhile_append_dropWhile, ← behind,
        List.takeWhile_append_dropWhile]
    -- only that the line is made of these pieces matters, not where it was cut
    generalize line.toList.takeWhile isBlank = indent at whole ⊢
    generalize (rest.takeWhile fun c => !isBlank c) = name at whole ⊢
    generalize (rest.dropWhile fun c => !isBlank c) = given at whole ⊢
    have stop : utf8Length indent + 1 + utf8Length name =
        utf8Length indent + utf8Length (':' :: name) := Nat.add_assoc ..
    have place : Span.IsIn ⟨utf8Length indent, utf8Length indent + 1 + utf8Length name⟩ line := by
      rw [stop]
      exact Span.isIn_of_pieces whole
    have arguments : Argument.IsPieceOf
        ⟨String.ofList given, utf8Length indent + 1 + utf8Length name⟩ line :=
      (Argument.isPieceOf_line line).cut (indent ++ ':' :: name) (by rw [whole, List.append_nil])
        (by rw [stop, utf8Length_append, Nat.zero_add])
    split
    · exact parseAssignment_pointsInto place arguments
    · nofun
    · split
      · exact place
      · exact List.forall_mem_singleton.2 arguments
    · nofun
    · nofun
    · exact place
  · exact List.forall_mem_singleton.2 (Argument.isPieceOf_line line)

end Command

/-! ### Failures -/

theorem Failure.spans_ofFormula {α : Type} (fault : Located FormulaCause) :
    (ofFormula fault : Failure α).spans = [fault.span] := by
  obtain ⟨span, cause⟩ := fault
  cases cause <;> rfl

namespace Session

variable {α : Type} [Numeral α] {session : Session α} {line : String} {command : Command}
  {argument : Argument} {failure : Failure α}

theorem run_eq_error_iff_answerTo :
    session.run line = .error failure ↔ session.answerTo line = .error failure := by
  rw [run_eq, map_eq_error_iff]

/-! ### Failures of a formula -/

theorem prepare_of_unread {fault : Located FormulaCause}
    (unread : (Expr.parse argument.text : Except _ (Expr α)) = .error fault) :
    prepare argument = .error (.shift argument.offset (.ofFormula fault) : Failure α) := by
  rw [prepare, unread]

/-- A formula that cannot be prepared is at fault where it cannot be read, or it is read and what it is
    about has no place. -/
theorem spans_of_unprepared (piece : argument.IsPieceOf line)
    (unprepared : prepare argument = .error failure) : ∀ span ∈ failure.spans, span.IsIn line := by
  unfold prepare at unprepared
  split at unprepared
  · next fault unread =>
    cases unprepared
    rw [Failure.shift, Failure.spans_ofFormula]
    exact List.forall_mem_singleton.2 (piece.shift_and_slice (Expr.isIn_of_parse_error unread)).1
  · split at unprepared
    · cases unprepared
      exact List.forall_mem_nil _
    · cases unprepared

theorem spans_of_unanswered {context : Context α} {s : Expr α}
    (unanswered : answer context s = .error failure) : failure.spans = [] := by
  unfold answer at unanswered
  split at unanswered
  · cases unanswered
  split at unanswered
  · split at unanswered <;> cases unanswered
    rfl
  · cases unanswered

/-! ### Failures of a command -/

theorem evaluated_eq (session : Session α) (formula : Argument) :
    session.evaluated formula = (prepare formula).bind fun e =>
      (e.simplify.mapError .ofPassLimit).bind (answer session.context) := by
  rw [evaluated]
  cases (prepare formula : Except (Failure α) (Expr α)) with
  | error => rfl
  | ok e =>
    dsimp only [Except.bind]
    cases e.simplify <;> rfl

theorem valueOf_eq (session : Session α) (formula : Argument) :
    session.valueOf formula = (prepare formula).bind fun e =>
      (e.evaluate session.context).mapError .ofEvaluation := by
  rw [valueOf]
  cases (prepare formula : Except (Failure α) (Expr α)) with
  | error => rfl
  | ok e =>
    dsimp only [Except.bind]
    cases e.evaluate session.context <;> rfl

theorem stepsOf_eq (formula : Argument) :
    (stepsOf formula : Except (Failure α) String) = (prepare formula).bind fun e =>
      ((e.simplifyWithin usualPassLimit).mapError .ofPassLimit).map fun simplified =>
        inLines (numbered 1 simplified.steps ++ [simplified.result.text]) := by
  rw [stepsOf]
  cases (prepare formula : Except (Failure α) (Expr α)) with
  | error => rfl
  | ok e =>
    dsimp only [Except.bind]
    cases e.simplifyWithin usualPassLimit <;> rfl

/-- A command with a formula prepares it and goes on with the expression. What fails from there on is about
    nothing that was typed. -/
theorem answerTo_of_formula (session : Session α) (parsed : Command.parse line = .ok command)
    (reads : command.formula? = some argument) :
    ∃ next : Expr α → Except (Failure α) String,
      session.answerTo line = (prepare argument).bind next ∧
        ∀ e failure, next e = .error failure → failure.spans = [] := by
  rw [answerTo, outcome_eq, parsed]
  cases command with
  | eval formula =>
    cases reads
    refine ⟨_, evaluated_eq session argument, fun e failure failed => ?_⟩
    rcases bind_eq_error_iff.1 failed with unsettled | ⟨s, -, unanswered⟩
    · obtain ⟨limit, -, rfl⟩ := mapError_eq_error_iff.1 unsettled
      rfl
    · exact spans_of_unanswered unanswered
  | assign name value =>
    cases reads
    refine ⟨fun e => ((e.evaluate session.context).mapError .ofEvaluation).map (equation name.text),
      ?_, fun e failure failed => ?_⟩
    · dsimp only
      rw [run_assign, valueOf_eq]
      cases (prepare argument : Except (Failure α) (Expr α)) with
      | error => rfl
      | ok e =>
        dsimp only [Except.bind]
        cases e.evaluate session.context <;> rfl
    · obtain ⟨cause, -, rfl⟩ := mapError_eq_error_iff.1 (map_eq_error_iff.1 failed)
      rfl
  | steps formula =>
    cases reads
    refine ⟨_, stepsOf_eq argument, fun e failure failed => ?_⟩
    obtain ⟨limit, -, rfl⟩ := mapError_eq_error_iff.1 (map_eq_error_iff.1 failed)
    rfl
  | vars | measure => cases reads

/-- A command without a formula is always answered. -/
theorem answerTo_of_no_formula (session : Session α) (parsed : Command.parse line = .ok command)
    (reads : command.formula? = none) : ∃ text, session.answerTo line = .ok text := by
  rw [answerTo, outcome_eq, parsed]
  cases command with
  | eval | assign | steps => cases reads
  | vars => exact ⟨_, rfl⟩
  | measure unit => exact ⟨_, rfl⟩

theorem spans_of_answerTo (failed : session.answerTo line = .error failure) :
    ∀ span ∈ failure.spans, span.IsIn line := by
  have points := Command.parse_pointsInto line
  cases parsed : Command.parse line with
  | error fault =>
    rw [parsed] at points
    rw [answerTo, outcome_eq, parsed] at failed
    cases failed
    exact List.forall_mem_singleton.2 points
  | ok command =>
    rw [parsed] at points
    cases reads : command.formula? with
    | none =>
      obtain ⟨text, answered⟩ := answerTo_of_no_formula session parsed reads
      cases answered.symm.trans failed
    | some argument =>
      obtain ⟨next, answers, placeless⟩ := answerTo_of_formula session parsed reads
      rw [answers, bind_eq_error_iff] at failed
      rcases failed with unprepared | ⟨e, -, failed⟩
      · exact spans_of_unprepared (points argument (Command.mem_arguments_of_formula? reads)) unprepared
      · rw [placeless e failure failed]
        exact List.forall_mem_nil _

/-- Arguments and failures point into the line. Each argument of a command, as it stands and without white
    space around it, is what the line has in the region of the argument. Each region of a failure is one of
    the line, whatever the session. And a formula in the line that is none, or that stands for no
    expression, fails with what it fails with alone, but that all regions are moved to where it begins: they
    hold the same text in the line as in the formula. -/
theorem failure_points_into_line (session : Session α) (line : String) :
    (∀ command, Command.parse line = .ok command → ∀ argument ∈ command.arguments,
      (argument.span.IsIn line ∧ argument.span.slice line = argument.text) ∧
        argument.trimmed.span.IsIn line ∧
        argument.trimmed.span.slice line = argument.trimmed.text) ∧
    (∀ failure, session.run line = .error failure → ∀ span ∈ failure.spans, span.IsIn line) ∧
    ∀ command argument fault, Command.parse line = .ok command →
      command.formula? = some argument →
      (Expr.parse argument.text : Except _ (Expr α)) = .error fault →
        session.run line = .error (.shift argument.offset (.ofFormula fault)) ∧
          ∀ span ∈ (Failure.ofFormula fault : Failure α).spans,
            (span.shift argument.offset).slice line = span.slice argument.text := by
  have points := Command.parse_pointsInto line
  refine ⟨fun command parsed argument mem => ?_, fun failure failed =>
    spans_of_answerTo (run_eq_error_iff_answerTo.1 failed),
    fun command argument fault parsed reads unread => ?_⟩
  · rw [parsed] at points
    exact ⟨(points argument mem).isIn_and_slice, (points argument mem).trimmed.isIn_and_slice⟩
  · rw [parsed] at points
    obtain ⟨next, answers, -⟩ := answerTo_of_formula session parsed reads
    rw [prepare_of_unread unread] at answers
    refine ⟨run_eq_error_iff_answerTo.2 answers, ?_⟩
    rw [Failure.spans_ofFormula]
    have piece := points argument (Command.mem_arguments_of_formula? reads)
    exact List.forall_mem_singleton.2 (piece.shift_and_slice (Expr.isIn_of_parse_error unread)).2

/-- A no-break space is white space to commands, so the name of the command ends there; but a formula has
    none. It takes two bytes, behind the nine of the command and of the wide space before it. -/
theorem failure_points_into_line_blank :
    Command.parse "\u3000:steps\u00a0x" = .ok (.steps ⟨"\u00a0x", 9⟩) ∧
    (Expr.parse "\u00a0x" : Except _ (Expr Double)) =
      .error ⟨⟨0, 2⟩, .parse (.unexpectedToken [.int, .float, .name, .openParen, .minus] .symbol)⟩ ∧
    (start : Session Double).run "\u3000:steps\u00a0x" = .error ⟨.parse (.unexpectedToken
      [.int, .float, .name, .openParen, .minus] .symbol), [⟨9, 11⟩]⟩ ∧
    Span.slice "\u3000:steps\u00a0x" ⟨9, 11⟩ = Span.slice "\u00a0x" ⟨0, 2⟩ := by
  have parsed : Command.parse "\u3000:steps\u00a0x" = .ok (.steps ⟨"\u00a0x", 9⟩) := by
    decide +kernel
  have tokens : significant (tokenize "\u00a0x") =
      [⟨.symbol, ⟨0, 2⟩, "\u00a0"⟩, ⟨.name, ⟨2, 3⟩, "x"⟩] := by
    decide +kernel
  have unread : (Expr.parse "\u00a0x" : Except _ (Expr Double)) = .error ⟨⟨0, 2⟩,
      .parse (.unexpectedToken [.int, .float, .name, .openParen, .minus] .symbol)⟩ := by
    rw [Expr.parse, Formula.parse_eq_ofTokens, tokens, Formula.ofTokens_of_ne_nil _ (by simp),
      Formula.verdict_eq, Formula.verdict_operand_other (by decide)]
    rfl
  obtain ⟨-, -, moved⟩ := failure_points_into_line (start : Session Double) "\u3000:steps\u00a0x"
  obtain ⟨failed, same⟩ := moved _ _ _ parsed rfl unread
  exact ⟨parsed, unread, failed, same ⟨0, 2⟩ (List.mem_singleton_self _)⟩

end Session

end SymbolicCalculus
