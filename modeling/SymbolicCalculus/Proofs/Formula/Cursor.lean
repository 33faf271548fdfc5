/-
Module: SymbolicCalculus.Proofs.Formula.Cursor
Layer: Proofs
Purpose: Reading at a cursor is reading the significant tokens that the cursor has before it. Every run
  comes to an end if it may go deep enough, with the value that the reader of the tokens ahead answers, or
  with its fault; the tokens that the reader leaves are those ahead of the cursor then. One induction on the
  number of tokens ahead carries all readers at once: each of them comes back to operands and climbs with
  fewer tokens ahead.
Main exports: Formula.ahead, Formula.Moves, Formula.Settles, Formula.Agrees, Formula.reads_ahead,
  Formula.groupAt_agrees, Formula.primaryAt_agrees, Formula.expressionAt_agrees, Formula.completeAt_tokenize
-/
import SymbolicCalculus.Formula.Cursor
import SymbolicCalculus.Proofs.Formula.Parsing
import SymbolicCalculus.Proofs.Formula.Verdicts
import SymbolicCalculus.Proofs.Token.MaximalMunch

namespace SymbolicCalculus

namespace Formula

open Grammar

/-! ### The tokens ahead of a cursor -/

/-- The significant tokens that the cursor has before it. -/
def ahead (tokens : List Token) (cursor : Nat) : List Token := significant (tokens.drop cursor)

/-- The cursor has stayed where it was, or it has gone on and stands right behind a token that is no
    blank. -/
inductive Moves (tokens : List Token) (cursor : Nat) : Nat → Prop where
  | stays : Moves tokens cursor cursor
  | goes {last : Nat} {token : Token} (forward : cursor ≤ last) (taken : tokens[last]? = some token)
      (significant : token.kind ≠ .blank) : Moves tokens cursor (last + 1)

variable {tokens rest : List Token} {cursor behind further : Nat}

theorem Moves.le (moves : Moves tokens cursor behind) : cursor ≤ behind := by
  cases moves with
  | stays => exact Nat.le_refl _
  | goes forward => exact Nat.le_succ_of_le forward

theorem Moves.trans (first : Moves tokens cursor further) (second : Moves tokens further behind) :
    Moves tokens cursor behind := by
  cases second with
  | stays => exact first
  | goes forward taken kept => exact .goes (Nat.le_trans first.le forward) taken kept

theorem ahead_of_getElem?_eq_none (outside : tokens[cursor]? = none) : ahead tokens cursor = [] := by
  rw [ahead, List.drop_eq_nil_of_le (List.getElem?_eq_none_iff.1 outside)]
  rfl

theorem ahead_of_getElem? {token : Token} (found : tokens[cursor]? = some token) :
    ahead tokens cursor =
      if token.kind = .blank then ahead tokens (cursor + 1) else token :: ahead tokens (cursor + 1) := by
  obtain ⟨inside, rfl⟩ := List.getElem?_eq_some_iff.1 found
  rw [ahead, List.drop_eq_getElem_cons inside, significant, List.filter_cons]
  split_ifs <;> simp_all [ahead, significant]

theorem current?_eq (tokens : List Token) (cursor : Nat) :
    current? tokens cursor = (ahead tokens cursor).head? := by
  rw [current?, ahead, significant, List.head?_filter]

/-- Taking the next token takes the first of those ahead, if there is one. -/
theorem nextAt_cases (tokens : List Token) (cursor : Nat) :
    (∃ left, nextAt tokens cursor = .failed (atEnd (endOf tokens) .unexpectedEnd) left ∧
      ahead tokens cursor = [] ∧ ahead tokens left = []) ∨
    ∃ found behind, nextAt tokens cursor = .done found behind ∧
      ahead tokens cursor = found :: ahead tokens behind ∧ Moves tokens cursor behind := by
  fun_induction nextAt tokens cursor with
  | case1 cursor outside =>
    have empty := ahead_of_getElem?_eq_none outside
    exact .inl ⟨cursor, rfl, empty, empty⟩
  | case2 cursor token found inside blank ih =>
    have skips : ahead tokens cursor = ahead tokens (cursor + 1) := by
      rw [ahead_of_getElem? found, if_pos blank]
    rcases ih with ⟨left, next, empty, nothing⟩ | ⟨next, behind, taken, row, moves⟩
    · exact .inl ⟨left, next, skips.trans empty, nothing⟩
    · refine .inr ⟨next, behind, taken, skips.trans row, ?_⟩
      cases moves with
      | stays =>
        -- the next token is missing from what is ahead of it
        exact absurd (congrArg List.length row) (by simp)
      | goes forward at_ kept => exact .goes (Nat.le_of_succ_le forward) at_ kept
  | case3 cursor token found inside kept =>
    exact .inr ⟨token, cursor + 1, rfl, by rw [ahead_of_getElem? found, if_neg kept],
      .goes (Nat.le_refl _) found kept⟩

section Tokens

variable {kind : TokenKind} {found : Token}

theorem wordAt_nil (kind : TokenKind) (empty : ahead tokens cursor = []) :
    ∃ left, wordAt kind tokens cursor = .failed (atEnd (endOf tokens) .unexpectedEnd) left := by
  rcases nextAt_cases tokens cursor with ⟨left, next, -⟩ | ⟨found, behind, -, row, -⟩
  · exact ⟨left, by rw [wordAt, next]⟩
  · rw [empty] at row
    cases row

theorem wordAt_cons (row : ahead tokens cursor = found :: rest) :
    ∃ behind, rest = ahead tokens behind ∧ Moves tokens cursor behind ∧
      ∀ kind, wordAt kind tokens cursor =
        if found.kind = kind then .done found behind
        else .failed (unexpected [kind] found) behind := by
  rcases nextAt_cases tokens cursor with ⟨left, -, empty, -⟩ | ⟨next, behind, taken, row', moves⟩
  · rw [row] at empty
    cases empty
  · obtain ⟨rfl, rfl⟩ := List.cons.inj (row.symm.trans row')
    exact ⟨behind, rfl, moves, fun kind => by rw [wordAt, taken]⟩

theorem wordAt_of_kind (row : ahead tokens cursor = found :: rest) (same : found.kind = kind) :
    ∃ behind, rest = ahead tokens behind ∧ Moves tokens cursor behind ∧
      wordAt kind tokens cursor = .done found behind := by
  obtain ⟨behind, left, moves, taken⟩ := wordAt_cons row
  exact ⟨behind, left, moves, by rw [taken, if_pos same]⟩

/-- A look ahead finds nothing if the next token is of another kind. -/
theorem value?_wordAt_of_other (other : ∀ next ∈ (ahead tokens cursor).head?, next.kind ≠ kind) :
    (wordAt kind tokens cursor).value? = none := by
  cases row : ahead tokens cursor with
  | nil =>
    obtain ⟨left, fails⟩ := wordAt_nil kind row
    rw [fails]
    rfl
  | cons next rest =>
    rw [row] at other
    obtain ⟨behind, -, -, taken⟩ := wordAt_cons row
    rw [taken kind, if_neg (other next rfl)]
    rfl

theorem signAt_cons {op : BinaryOp} (row : ahead tokens cursor = found :: rest)
    (known : found.kind.binaryOp? = some op) :
    ∃ behind, rest = ahead tokens behind ∧ Moves tokens cursor behind ∧
      signAt tokens cursor = .done (op, found.span) behind := by
  rcases nextAt_cases tokens cursor with ⟨left, -, empty, -⟩ | ⟨next, behind, taken, row', moves⟩
  · rw [row] at empty
    cases empty
  · obtain ⟨rfl, rfl⟩ := List.cons.inj (row.symm.trans row')
    exact ⟨behind, rfl, moves, by rw [signAt, taken]; simp only [known]⟩

/-- A look ahead for a sign finds none, or one that binds too loosely, where a climb stops. -/
theorem value?_signAt_of_stops {level : Precedence} (stops : Stops level (ahead tokens cursor)) :
    (signAt tokens cursor).value? = none ∨
      ∃ op place, (signAt tokens cursor).value? = some (op, place) ∧ op.precedence < level := by
  rcases nextAt_cases tokens cursor with ⟨left, next, -⟩ | ⟨next, behind, taken, row, -⟩
  · rw [signAt, next]
    exact .inl rfl
  · rw [signAt, taken]
    dsimp only
    rw [row] at stops
    cases known : next.kind.binaryOp? with
    | none => exact .inl rfl
    | some op => exact .inr ⟨op, next.span, rfl, stops next rfl op known⟩

end Tokens

/-! ### Runs and readings -/

section Runs

variable {β γ : Type}

/-- A run comes to an answer: it is not interrupted if it may go deep enough, and wherever it is not
    interrupted, it comes to this answer. -/
structure Settles (run : Nat → Option β) (answer : β) : Prop where
  /-- However deep the run may go beyond some depth, it comes to the answer. -/
  ends : ∃ enough, ∀ depth, enough ≤ depth → run depth = some answer
  /-- Less depth may interrupt the run; it leads to no other answer. -/
  only : ∀ {depth : Nat} {other : β}, run depth = some other → other = answer

variable {run : Nat → Option β} {answer : β}

theorem Settles.at_once (answer : β) : Settles (fun _ => some answer) answer :=
  ⟨⟨0, fun _ _ => rfl⟩, fun same => (Option.some_inj.1 same).symm⟩

/-- A call goes one deeper than what it calls. -/
theorem Settles.call (shallow : run 0 = none)
    (settles : Settles (fun depth => run (depth + 1)) answer) : Settles run answer := by
  obtain ⟨⟨enough, comes⟩, only⟩ := settles
  refine ⟨⟨enough + 1, fun depth deep => ?_⟩, fun {depth other} same => ?_⟩
  · obtain ⟨below, rfl⟩ : ∃ below, depth = below + 1 := ⟨depth - 1, by omega⟩
    exact comes below (Nat.le_of_succ_le_succ deep)
  · cases depth with
    | zero => cases shallow.symm.trans same
    | succ below => exact only same

theorem Settles.bind {next : Nat → β → Option γ} {last : γ} (settles : Settles run answer)
    (goesOn : Settles (fun depth => next depth answer) last) :
    Settles (fun depth => run depth >>= next depth) last := by
  obtain ⟨⟨enough, comes⟩, only⟩ := settles
  obtain ⟨⟨more, ends⟩, only'⟩ := goesOn
  refine ⟨⟨max enough more, fun depth deep => ?_⟩, fun {depth other} same => ?_⟩
  · exact Option.bind_eq_some_iff.2 ⟨answer, comes depth (Nat.le_trans (Nat.le_max_left ..) deep),
      ends depth (Nat.le_trans (Nat.le_max_right ..) deep)⟩
  · obtain ⟨middle, reached, rest⟩ := Option.bind_eq_some_iff.1 same
    cases only reached
    exact only' rest

end Runs

section Agreement

variable {β γ : Type} {stop : Nat}

/-- The runs at a cursor come to what a reading of the tokens ahead comes to. The places of faults are
    the same if the reader is told where the row ends. -/
inductive Agrees (stop : Nat) (tokens : List Token) (cursor : Nat) (run : Nat → Option (Attempt β)) :
    Outcome β → Prop where
  | done {value : β} {behind : Nat} (settles : Settles run (.done value behind))
      (moves : Moves tokens cursor behind) : Agrees stop tokens cursor run (.ok (value, ahead tokens behind))
  | failed {error error' : Located ParseCause} {left : Nat} (settles : Settles run (.failed error left))
      (same : stop = endOf tokens → error = error') :
      Agrees stop tokens cursor run (.error (error', ahead tokens left))

variable {run : Nat → Option (Attempt β)} {outcome : Outcome β}

theorem Agrees.done_at_once {value : β} {behind : Nat} (moves : Moves tokens cursor behind) :
    Agrees stop tokens cursor (fun _ => some (.done value behind)) (.ok (value, ahead tokens behind)) :=
  .done (.at_once _) moves

theorem Agrees.fails_at_once {error error' : Located ParseCause} {left : Nat}
    (row : ahead tokens left = rest) (same : stop = endOf tokens → error = error') :
    Agrees stop tokens cursor (fun _ => some (.failed error left) : Nat → Option (Attempt β))
      (.error (error', rest)) := by
  subst row
  exact .failed (.at_once _) same

theorem Agrees.call (shallow : run 0 = none)
    (agrees : Agrees stop tokens cursor (fun depth => run (depth + 1)) outcome) :
    Agrees stop tokens cursor run outcome := by
  cases agrees with
  | done settles moves => exact .done (settles.call shallow) moves
  | failed settles same => exact .failed (settles.call shallow) same

/-- What has been taken before counts as taken by the run. -/
theorem Agrees.after (moves : Moves tokens cursor further)
    (agrees : Agrees stop tokens further run outcome) : Agrees stop tokens cursor run outcome := by
  cases agrees with
  | done settles goes => exact .done settles (moves.trans goes)
  | failed settles same => exact .failed settles same

/-- A run that starts with another one goes on from the answer of that one. -/
theorem Agrees.of_settles {first : Nat → Option (Attempt γ)} {answer : Attempt γ}
    {next : Nat → Attempt γ → Option (Attempt β)} (settles : Settles first answer)
    (agrees : Agrees stop tokens cursor (fun depth => next depth answer) outcome) :
    Agrees stop tokens cursor (fun depth => first depth >>= next depth) outcome := by
  cases agrees with
  | done ends moves => exact .done (settles.bind ends) moves
  | failed ends same => exact .failed (settles.bind ends) same

theorem Agrees.bind {next : Nat → Attempt β → Option (Attempt γ)}
    {goesOn : β × List Token → Outcome γ} (agrees : Agrees stop tokens cursor run outcome)
    (fails : ∀ depth error left, next depth (.failed error left) = some (.failed error left))
    (goes : ∀ {value behind}, outcome = .ok (value, ahead tokens behind) →
      Agrees stop tokens behind (fun depth => next depth (.done value behind))
        (goesOn (value, ahead tokens behind))) :
    Agrees stop tokens cursor (fun depth => run depth >>= next depth) (outcome.bind goesOn) := by
  cases agrees with
  | done settles moves => exact .of_settles settles ((goes rfl).after moves)
  | failed settles same =>
    refine .of_settles settles ?_
    simp only [fails]
    exact .failed (.at_once _) same

theorem Agrees.map {make : β → γ} {made : β × List Token → γ × List Token}
    {next : Attempt β → Option (Attempt γ)} (agrees : Agrees stop tokens cursor run outcome)
    (fails : ∀ error left, next (.failed error left) = some (.failed error left))
    (makes : ∀ value behind, next (.done value behind) = some (.done (make value) behind))
    (same : ∀ value rest, made (value, rest) = (make value, rest)) :
    Agrees stop tokens cursor (fun depth => run depth >>= next) (outcome.map made) := by
  cases agrees with
  | @done value behind settles moves =>
    refine .of_settles settles ?_
    rw [makes, Except.map, same]
    exact .done_at_once moves
  | failed settles blames =>
    refine .of_settles settles ?_
    rw [fails]
    exact .failed (.at_once _) blames

/-- A run on trial is a reading that puts back what it had taken. -/
theorem Agrees.orBackTo (agrees : Agrees stop tokens cursor run outcome) (start : Nat) :
    Agrees stop tokens cursor (fun depth => run depth >>= fun attempt => pure (attempt.orBackTo start))
      (outcome.mapError fun fault => (fault.1, ahead tokens start)) := by
  cases agrees with
  | done settles moves => exact .of_settles settles (.done_at_once moves)
  | failed settles same => exact .of_settles settles (.failed (.at_once _) same)

/-- A run that agrees with a reading comes to a value or to a fault of its own. -/
theorem Agrees.ends (agrees : Agrees stop tokens cursor run outcome) :
    (∃ value behind, Settles run (.done value behind) ∧ outcome = .ok (value, ahead tokens behind) ∧
      Moves tokens cursor behind) ∨
    ∃ error error' left, Settles run (.failed error left) ∧
      outcome = .error (error', ahead tokens left) ∧ (stop = endOf tokens → error = error') := by
  cases agrees with
  | done settles moves => exact .inl ⟨_, _, settles, rfl, moves⟩
  | failed settles same => exact .inr ⟨_, _, _, settles, rfl, same⟩

theorem Agrees.of_done {depth behind : Nat} {value : β}
    (agrees : Agrees stop tokens cursor run outcome) (done : run depth = some (.done value behind)) :
    outcome = .ok (value, ahead tokens behind) ∧ Moves tokens cursor behind := by
  cases agrees with
  | done settles moves =>
    cases settles.only done
    exact ⟨rfl, moves⟩
  | failed settles => cases settles.only done

/-- Whether a run succeeds, and with which value, the reading tells. -/
theorem Agrees.exists_value (agrees : Agrees stop tokens cursor run outcome) :
    ∃ answer, Settles run answer ∧ answer.value? = outcome.toOption.map Prod.fst := by
  cases agrees with
  | done settles moves => exact ⟨_, settles, rfl⟩
  | failed settles same => exact ⟨_, settles, rfl⟩

/-- A run comes to what the reading answers, if the reader is told where the row ends. -/
theorem Agrees.toExcept {bound : Nat} {reading : Reading β bound}
    (agrees : Agrees (endOf tokens) tokens cursor run reading.outcome) :
    ∃ answer, Settles run answer ∧ answer.toExcept = reading.toExcept := by
  cases reading with
  | done value rest shorter =>
    cases agrees with
    | done settles => exact ⟨_, settles, rfl⟩
  | failed error rest =>
    cases agrees with
    | failed settles same =>
      cases same rfl
      exact ⟨_, settles, rfl⟩

end Agreement

section Readers

variable {α : Type} [Numeral α] {stop : Nat}

/-! ### Literals -/

/-- A number is taken, though it be out of range. -/
theorem numeralAt_cons {found : Token} (row : ahead tokens cursor = found :: rest)
    (number : found.IsNumber) :
    ∃ behind, rest = ahead tokens behind ∧ Moves tokens cursor behind ∧
      (numeralAt tokens cursor : Attempt (Formula α)) =
        match Numeral.ofLiteral? found.lexeme with
        | some value => .done (.number value found.span) behind
        | none => .failed ⟨found.span, .numberOutOfRange⟩ behind := by
  obtain ⟨behind, left, moves, taken⟩ := wordAt_cons row
  have numeral : numeralTokenAt tokens cursor = .done found behind := by
    rw [numeralTokenAt, taken .int]
    rcases number with int | float
    · rw [if_pos int]
      rfl
    · rw [if_neg (by rw [float]; decide)]
      dsimp only [Attempt.orBackTo]
      rw [taken .float, if_pos float]
  refine ⟨behind, left, moves, ?_⟩
  cases value : (Numeral.ofLiteral? found.lexeme : Option α) <;>
    simp only [numeralAt, numeral, value]

theorem literalAt_number {found : Token} (row : ahead tokens cursor = found :: rest)
    (number : found.IsNumber) :
    (literalAt tokens cursor : Attempt (Formula α)) = (numeralAt tokens cursor).orBackTo cursor := by
  obtain ⟨kind, span, lexeme⟩ := found
  rw [literalAt, current?_eq, row]
  rcases number with ⟨rfl⟩ | ⟨rfl⟩ <;> rfl

/-- A literal counts as not taken if it is no number in range. -/
theorem literalAt_agrees (stop : Nat) (tokens : List Token) (cursor : Nat) :
    Agrees stop tokens cursor (fun _ => some (literalAt tokens cursor))
      (literal stop (ahead tokens cursor) : Reading (Formula α) _).outcome := by
  cases row : ahead tokens cursor with
  | nil =>
    rw [literalAt, current?_eq, row]
    exact .fails_at_once row fun same => by rw [same]
  | cons found rest =>
    by_cases number : found.IsNumber
    · obtain ⟨behind, rfl, moves, taken⟩ := numeralAt_cons (α := α) row number
      rw [literalAt_number row number, taken, outcome_literal_number number]
      cases (Numeral.ofLiteral? found.lexeme : Option α) with
      | none => exact .fails_at_once row fun _ => rfl
      | some value => exact .done_at_once moves
    · obtain ⟨behind, rfl, moves, taken⟩ := wordAt_cons row
      obtain ⟨kind, span, lexeme⟩ := found
      rw [literalAt, current?_eq, row]
      cases kind
      case name =>
        simp only [List.head?_cons, nameAt, taken]
        exact .done_at_once moves
      case int => exact absurd (.inl rfl) number
      case float => exact absurd (.inr rfl) number
      all_goals exact .fails_at_once row fun _ => rfl

/-! ### Climbs in two stages -/

/-- A sign takes the right operand of an operator away from it exactly if the climb to the operator's
    right level takes the sign. -/
theorem bindsTighter_iff (next op : BinaryOp) :
    bindsTighter next op = true ↔ ¬ next.precedence < op.rightLevel := by
  cases next <;> cases op <;> decide

/-- What comes next stops the climb, or it is the sign of an operator that the climb takes. -/
theorem stops_or_takes (level : Precedence) (row : List Token) :
    Stops level row ∨ ∃ sign rest op, row = sign :: rest ∧ sign.kind.binaryOp? = some op ∧
      ¬ op.precedence < level := by
  cases row with
  | nil => exact .inl (stops_nil level)
  | cons sign rest =>
    rcases loose_or_tight sign level with loose | ⟨op, known, tight⟩
    · left
      rintro _ ⟨⟩
      exact loose
    · exact .inr ⟨sign, rest, op, rfl, known, tight⟩

theorem shorter_of_outcome {β : Type} {bound : Nat} {reading : Reading β bound} {value : β}
    (done : reading.outcome = .ok (value, rest)) : rest.length < bound :=
  Reading.shorter_of_verdict (mapError_eq_ok_iff.2 done)

/-- A climb that takes an operator leaves fewer tokens. -/
theorem shorter_of_climb {level : Precedence} {left f : Formula α} {sign : Token} {op : BinaryOp}
    {row : List Token} (known : sign.kind.binaryOp? = some op) (tight : ¬ op.precedence < level)
    (done : (climb stop level left (sign :: row)).outcome = .ok (f, rest)) :
    rest.length < (sign :: row).length := by
  rw [outcome_climb_cons known tight] at done
  obtain ⟨⟨right, behind⟩, read, goesOn⟩ := bind_eq_ok_iff.1 done
  have first := shorter_of_verdict (verdict_eq_ok_iff.2 read)
  have second := shorter_of_outcome goesOn
  exact Nat.lt_of_le_of_lt (Nat.le_of_lt_succ second) (Nat.lt_succ_of_lt first)

/-- A climb may stop on its way and go on from where it is. -/
theorem outcome_climb_resumes {level higher : Precedence} (above : level ≤ higher)
    (left : Formula α) (row : List Token) :
    (climb stop level left row).outcome =
      (climb stop higher left row).outcome.bind fun part =>
        (climb stop level part.1 part.2).outcome := by
  obtain ⟨n, len⟩ : ∃ n, row.length = n := ⟨_, rfl⟩
  induction n using Nat.strongRecOn generalizing row left with
  | ind n ih =>
    rcases stops_or_takes higher row with stops | ⟨sign, rest, op, rfl, known, tight⟩
    · rw [outcome_climb_of_stops stops]
      rfl
    · have tight' : ¬ op.precedence < level := fun low => tight (Nat.lt_of_lt_of_le low above)
      rw [outcome_climb_cons known tight, outcome_climb_cons known tight', bind_bind_eq]
      cases read : (reach stop op.rightLevel rest : Outcome (Formula α)) with
      | error fault => rfl
      | ok right =>
        have shorter := shorter_of_verdict (verdict_eq_ok_iff.2 read)
        exact ih right.2.length (by rw [← len, List.length_cons]; omega) _ _ rfl

/-! ### Formulas -/

/-- At the cursor, operands and climbs come to what the readers of the tokens ahead come to. -/
structure Reads (α : Type) [Numeral α] (stop : Nat) (tokens : List Token) (cursor : Nat) : Prop where
  operands : Agrees stop tokens cursor (operandAt · tokens cursor)
    (operand stop (ahead tokens cursor) : Reading (Formula α) _).outcome
  climbs (level : Precedence) (left : Formula α) :
    Agrees stop tokens cursor (climbAt · level left tokens cursor)
      (climb stop level left (ahead tokens cursor)).outcome

/-- It is so at all cursors with fewer tokens ahead. -/
def ReadsBelow (α : Type) [Numeral α] (stop : Nat) (tokens : List Token) (bound : Nat) : Prop :=
  ∀ cursor, (ahead tokens cursor).length < bound → Reads α stop tokens cursor

/-- Behind a token that was taken, there are fewer tokens ahead. -/
theorem shorter_of_cons {found : Token} (row : ahead tokens cursor = found :: ahead tokens behind) :
    (ahead tokens behind).length < (ahead tokens cursor).length := by
  rw [row]
  exact shorter_rest

variable {bound : Nat} (reads : ReadsBelow α stop tokens bound)
include reads

theorem expressionAt_agrees (within : (ahead tokens cursor).length < bound) :
    Agrees stop tokens cursor (expressionAt · tokens cursor)
      (expression stop (ahead tokens cursor) : Reading (Formula α) _).outcome := by
  rw [outcome_expression, reach]
  refine .call ?_ ?_ <;> simp only [expressionAt]
  refine (reads cursor within).operands.bind (fun _ _ _ => rfl) fun {first behind} read => ?_
  exact (reads behind (Nat.lt_trans (shorter_of_outcome read) within)).climbs .any first

/-! ### Parentheses and calls -/

theorem groupAt_agrees (within : (ahead tokens cursor).length ≤ bound) :
    Agrees stop tokens cursor (groupAt · tokens cursor)
      (group stop (ahead tokens cursor) : Reading (Formula α) _).outcome := by
  refine .call ?_ ?_ <;> simp only [groupAt]
  cases row : ahead tokens cursor with
  | nil =>
    obtain ⟨left, fails⟩ := wordAt_nil .openParen row
    rw [fails, group]
    exact .fails_at_once row fun same => by rw [same]
  | cons opening rest =>
    obtain ⟨inside, rfl, moves, taken⟩ := wordAt_cons row
    rw [taken]
    by_cases opens : opening.kind = .openParen
    · rw [if_pos opens]
      dsimp only [Attempt.orBackTo]
      by_cases filled : ∀ next ∈ (ahead tokens inside).head?, next.kind ≠ .closeParen
      · rw [value?_wordAt_of_other filled, outcome_group opens filled]
        have fewer := Nat.lt_of_lt_of_le (shorter_of_cons row) within
        rcases (expressionAt_agrees reads fewer).ends with
          ⟨inner, behind, run, read, goes⟩ | ⟨error, error', left, run, read, same⟩
        · rw [read]
          refine .of_settles run ?_
          dsimp [Attempt.orBackTo]
          rw [current?_eq]
          cases row' : ahead tokens behind with
          | nil => exact .fails_at_once row' fun _ => rfl
          | cons closing rest =>
            dsimp only [List.head?_cons]
            by_cases closes : closing.kind = .closeParen
            · obtain ⟨last, rfl, closed, takes⟩ := wordAt_of_kind row' closes
              rw [if_pos closes, if_pos closes, takes]
              exact .done_at_once (moves.trans (goes.trans closed))
            · rw [if_neg closes, if_neg closes]
              exact .fails_at_once row' fun _ => rfl
        · rw [read]
          refine .of_settles run ?_
          exact .failed (.at_once _) same
      · -- nothing stands between the parentheses
        obtain ⟨closing, rest, row', closes⟩ := exists_next filled
        obtain ⟨behind, -, -, takes⟩ := wordAt_of_kind row' closes
        rw [takes, row', outcome_group_empty opens closes]
        exact .fails_at_once row' fun _ => rfl
    · rw [if_neg opens, group, if_neg opens]
      exact .fails_at_once row fun _ => rfl

/-- The arguments that are given already stand before those that are read. -/
theorem argumentsAt_agrees (opening : Span) (given : List (Formula α))
    (within : (ahead tokens cursor).length < bound) :
    Agrees stop tokens cursor (argumentsAt · opening given tokens cursor)
      ((arguments stop opening (ahead tokens cursor)).outcome.map fun found =>
        ((given ++ found.1.1, found.1.2), found.2)) := by
  -- each argument shortens the tokens ahead, so the loop is followed by induction on their number
  obtain ⟨n, len⟩ : ∃ n, (ahead tokens cursor).length = n := ⟨_, rfl⟩
  induction n using Nat.strongRecOn generalizing cursor given with
  | ind n ih =>
    rw [outcome_arguments]
    refine .call ?_ ?_ <;> simp only [argumentsAt]
    rcases (expressionAt_agrees reads within).ends with
      ⟨argument, behind, run, read, goes⟩ | ⟨error, error', left, run, read, same⟩
    · rw [read]
      refine .of_settles run ?_
      dsimp [Attempt.orBackTo]
      rw [current?_eq]
      cases row : ahead tokens behind with
      | nil => exact .fails_at_once row fun _ => rfl
      | cons found rest =>
        have shorter := shorter_of_outcome read
        rw [row, List.length_cons] at shorter
        obtain ⟨next, rfl, moves, taken⟩ := wordAt_cons row
        by_cases closes : found.kind = .closeParen
        · simp only [List.head?_cons, closes, taken, if_true]
          exact .done_at_once (goes.trans moves)
        · by_cases separates : found.kind = .comma
          · have fewer : (ahead tokens next).length < n := by omega
            have others := ih _ fewer (given ++ [argument]) (by omega) rfl
            have pushed := others.after (goes.trans moves)
            simp only [List.head?_cons, separates, taken, reduceCtorEq, if_true, if_false]
            rw [map_map_eq]
            simpa only [List.append_assoc, List.singleton_append] using pushed
          · simp only [List.head?_cons, closes, separates, if_false]
            exact .fails_at_once row fun _ => rfl
    · rw [read]
      refine .of_settles run ?_
      exact .failed (.at_once _) same

theorem calleeAt_agrees {called : String} {place : Span}
    (within : (ahead tokens cursor).length ≤ bound) :
    Agrees stop tokens cursor (calleeAt · called place tokens cursor)
      (callee stop called place (ahead tokens cursor) : Reading (Formula α) _).outcome := by
  refine .call ?_ ?_ <;> simp only [calleeAt]
  cases row : ahead tokens cursor with
  | nil =>
    obtain ⟨left, fails⟩ := wordAt_nil .openParen row
    rw [fails, callee]
    exact .fails_at_once row fun same => by rw [same]
  | cons opening rest =>
    obtain ⟨inside, rfl, moves, taken⟩ := wordAt_cons row
    rw [taken]
    by_cases opens : opening.kind = .openParen
    · rw [if_pos opens]
      dsimp only [Attempt.orBackTo]
      by_cases filled : ∀ next ∈ (ahead tokens inside).head?, next.kind ≠ .closeParen
      · rw [value?_wordAt_of_other filled, outcome_callee opens filled]
        have fewer := Nat.lt_of_lt_of_le (shorter_of_cons row) within
        rcases (argumentsAt_agrees reads opening.span [] fewer).ends with
          ⟨found, behind, run, read, goes⟩ | ⟨error, error', left, run, read, same⟩
        · obtain ⟨row', listed, same⟩ := map_eq_ok_iff.1 read
          obtain ⟨rfl, left⟩ := Prod.mk.inj same
          rw [listed, Except.map, left]
          refine .of_settles run ?_
          exact .done_at_once (moves.trans goes)
        · rw [map_eq_error_iff.1 read]
          refine .of_settles run ?_
          exact .failed (.at_once _) same
      · -- nothing stands between the parentheses
        obtain ⟨closing, rest, row', closes⟩ := exists_next filled
        obtain ⟨behind, rfl, goes, takes⟩ := wordAt_of_kind row' closes
        rw [takes, row', outcome_callee_empty opens closes]
        exact .done_at_once (moves.trans goes)
    · rw [if_neg opens, callee, if_neg opens]
      exact .fails_at_once row fun _ => rfl

theorem invocationAt_agrees (within : (ahead tokens cursor).length ≤ bound) :
    Agrees stop tokens cursor (invocationAt · tokens cursor)
      (invocation stop (ahead tokens cursor) : Reading (Formula α) _).outcome := by
  simp only [invocationAt, nameAt]
  cases row : ahead tokens cursor with
  | nil =>
    obtain ⟨left, fails⟩ := wordAt_nil .name row
    rw [fails]
    exact .fails_at_once row fun same => by rw [same]
  | cons found rest =>
    obtain ⟨behind, rfl, moves, taken⟩ := wordAt_cons row
    rw [taken]
    by_cases named : found.kind = .name
    · rw [if_pos named, outcome_invocation named]
      have fewer := Nat.lt_of_lt_of_le (shorter_of_cons row) within
      exact (calleeAt_agrees reads (Nat.le_of_lt fewer)).after moves
    · rw [if_neg named, invocation, name, token, if_neg named]
      exact .fails_at_once row fun _ => rfl

/-! ### Operands -/

theorem primaryAt_agrees (within : (ahead tokens cursor).length ≤ bound) :
    Agrees stop tokens cursor (primaryAt · tokens cursor)
      (primary stop (ahead tokens cursor) : Reading (Formula α) _).outcome := by
  refine .call ?_ ?_ <;> simp only [primaryAt, current?_eq]
  cases row : ahead tokens cursor with
  | nil =>
    rw [primary]
    exact .fails_at_once row fun same => by rw [same]
  | cons found rest =>
    by_cases number : found.IsNumber
    · obtain ⟨behind, rfl, moves, taken⟩ := numeralAt_cons (α := α) row number
      rw [outcome_primary_number number, literalAt_number row number, taken]
      obtain ⟨kind, span, lexeme⟩ := found
      rcases number with ⟨rfl⟩ | ⟨rfl⟩
      all_goals
        dsimp only [List.head?_cons]
        cases (Numeral.ofLiteral? lexeme : Option α) with
        | none => exact .fails_at_once row fun _ => rfl
        | some value => exact .done_at_once moves
    obtain ⟨behind, rfl, moves, taken⟩ := wordAt_cons row
    obtain ⟨kind, span, lexeme⟩ := found
    cases kind
    case name =>
      simp only [List.head?_cons, nameAt, taken, if_true, Attempt.orBackTo, Attempt.map]
      by_cases alone : ∀ next ∈ (ahead tokens behind).head?, next.kind ≠ .openParen
      · have other : (ahead tokens behind).head?.map Token.kind ≠ some .openParen := by
          simpa using alone
        rw [outcome_primary_symbol rfl alone]
        simp only [if_neg other]
        exact .done_at_once moves
      · obtain ⟨opening, inside, row', opens⟩ := exists_next alone
        have fewer := Nat.lt_of_lt_of_le (shorter_of_cons row) within
        have same : (ahead tokens behind).head?.map Token.kind = some .openParen := by
          rw [row', ← opens]
          rfl
        simp only [if_pos same]
        rw [row', outcome_primary_call rfl opens, ← row']
        exact (calleeAt_agrees reads (Nat.le_of_lt fewer)).after moves
    case openParen =>
      have whole := (groupAt_agrees reads within).orBackTo cursor
      rw [row] at whole
      rw [outcome_primary_group rfl]
      exact whole
    case int => exact absurd (.inl rfl) number
    case float => exact absurd (.inr rfl) number
    all_goals
      rw [primary]
      exact .fails_at_once row fun _ => rfl

theorem operandAt_agrees (within : (ahead tokens cursor).length ≤ bound) :
    Agrees stop tokens cursor (operandAt · tokens cursor)
      (operand stop (ahead tokens cursor) : Reading (Formula α) _).outcome := by
  refine .call ?_ ?_ <;> simp only [operandAt]
  by_cases positive : ∀ next ∈ (ahead tokens cursor).head?, next.kind ≠ .minus
  · rw [value?_wordAt_of_other positive, outcome_operand_of_not_minus positive]
    exact (primaryAt_agrees reads within).orBackTo cursor
  · obtain ⟨sign, rest, row, minus⟩ := exists_next positive
    obtain ⟨behind, rfl, moves, taken⟩ := wordAt_of_kind row minus
    have fewer := Nat.lt_of_lt_of_le (shorter_of_cons row) within
    rw [taken, row, outcome_operand_minus minus, reach, map_bind_eq]
    dsimp only [Attempt.value?]
    refine .after moves (.call ?_ ?_) <;> simp only [negatedAt, taken]
    refine (reads behind fewer).operands.bind (fun _ _ _ => rfl) fun {first after} read => ?_
    have shorter := Nat.lt_trans (shorter_of_outcome read) fewer
    exact ((reads after shorter).climbs .neg first).map (fun _ _ => rfl) (fun _ _ => rfl)
      (fun _ _ => rfl)

/-! ### Climbs -/

/-- The right operand of an operator is what the climb to the operator's right level comes to. Every sign
    that binds tighter is taken by the climb that it starts, so that the loop comes to an end. -/
theorem rightAt_agrees (op : BinaryOp) (sign : Span) (left right : Formula α)
    (within : (ahead tokens cursor).length < bound) :
    Agrees stop tokens cursor (rightAt · op sign left right tokens cursor)
      ((climb stop op.rightLevel right (ahead tokens cursor)).outcome.map fun whole =>
        (.binary op sign left whole.1, whole.2)) := by
  obtain ⟨n, len⟩ : ∃ n, (ahead tokens cursor).length = n := ⟨_, rfl⟩
  induction n using Nat.strongRecOn generalizing cursor right with
  | ind n ih =>
    refine .call ?_ ?_ <;> simp only [rightAt]
    rcases stops_or_takes op.rightLevel (ahead tokens cursor) with
      stops | ⟨next, rest, other, row, known, tight⟩
    · rw [outcome_climb_of_stops stops]
      rcases value?_signAt_of_stops stops with none_ | ⟨other, place, seen, loose⟩
      · rw [none_]
        exact .done_at_once .stays
      · rw [seen]
        simp only [if_neg fun tighter => (bindsTighter_iff other op).1 tighter loose]
        exact .done_at_once .stays
    · have above : op.rightLevel ≤ other.precedence := Nat.le_of_not_lt tight
      rw [outcome_climb_resumes above, map_bind_eq]
      obtain ⟨last, -, -, taken⟩ := signAt_cons row known
      rw [taken]
      simp only [Attempt.value?, if_pos ((bindsTighter_iff other op).2 tight)]
      refine ((reads cursor within).climbs other.precedence right).bind (fun _ _ _ => rfl)
        fun {right behind} read => ?_
      have fewer : (ahead tokens behind).length < (ahead tokens cursor).length := by
        rw [row] at read ⊢
        exact shorter_of_climb known (Nat.lt_irrefl _) read
      exact ih (ahead tokens behind).length (by omega) right (by omega) rfl

theorem climbAt_agrees {level : Precedence} {left : Formula α}
    (within : (ahead tokens cursor).length ≤ bound) :
    Agrees stop tokens cursor (climbAt · level left tokens cursor)
      (climb stop level left (ahead tokens cursor)).outcome := by
  refine .call ?_ ?_ <;> simp only [climbAt]
  rcases stops_or_takes level (ahead tokens cursor) with
    stops | ⟨next, rest, op, row, known, tight⟩
  · rw [outcome_climb_of_stops stops]
    rcases value?_signAt_of_stops stops with none_ | ⟨other, place, seen, loose⟩
    · rw [none_]
      exact .done_at_once .stays
    · rw [seen]
      simp only [if_pos loose]
      exact .done_at_once .stays
  · obtain ⟨behind, rfl, moves, taken⟩ := signAt_cons row known
    have fewer := Nat.lt_of_lt_of_le (shorter_of_cons row) within
    rw [taken, row, outcome_climb_cons known tight, reach, bind_bind_eq]
    simp only [Attempt.value?, Attempt.orBackTo, if_neg tight]
    apply Agrees.after moves
    refine (reads behind fewer).operands.bind (fun _ _ _ => rfl) fun {first after} read => ?_
    have shorter := Nat.lt_trans (shorter_of_outcome read) fewer
    dsimp only
    rcases (rightAt_agrees reads op next.span left first shorter).ends with
      ⟨whole, last, run, read, goes⟩ | ⟨error, error', at_, run, read, same⟩
    · obtain ⟨⟨own, remaining⟩, found, made⟩ := map_eq_ok_iff.1 read
      obtain ⟨rfl, rfl⟩ := Prod.mk.inj made
      have fewest := Nat.lt_of_le_of_lt (Nat.le_of_lt_succ (shorter_of_outcome found)) shorter
      rw [found]
      refine .of_settles run ?_
      exact ((reads last fewest).climbs level _).after goes
    · rw [map_eq_error_iff.1 read]
      refine .of_settles run ?_
      exact .failed (.at_once _) same

omit reads

/-- At every cursor, operands and climbs come to what the readers of the tokens ahead come to. -/
theorem reads_ahead (stop : Nat) (tokens : List Token) (cursor : Nat) :
    Reads α stop tokens cursor := by
  obtain ⟨n, len⟩ : ∃ n, (ahead tokens cursor).length = n := ⟨_, rfl⟩
  induction n using Nat.strongRecOn generalizing cursor with
  | ind n ih =>
    have reads : ReadsBelow α stop tokens n := fun further fewer => ih _ fewer further rfl
    exact ⟨operandAt_agrees reads len.le, fun level left => climbAt_agrees reads len.le⟩

/-! ### Whole texts -/

theorem completeAt_agrees {β : Type} {read : Nat → List Token → Nat → Option (Attempt β)}
    {reader : (tokens : List Token) → Reading β tokens.length}
    (agrees : Agrees stop tokens cursor (read · tokens cursor) (reader (ahead tokens cursor)).outcome) :
    Agrees stop tokens cursor (fun depth => completeAt (read depth) tokens cursor)
      (complete stop reader (ahead tokens cursor)).outcome := by
  simp only [completeAt, current?_eq]
  cases row : ahead tokens cursor with
  | nil => exact .fails_at_once row fun same => by rw [same]
  | cons first others =>
    rw [row] at agrees
    rw [outcome_complete_cons]
    rcases agrees.ends with ⟨value, behind, run, done, moves⟩ | ⟨error, error', left, run, failed, same⟩
    · rw [done]
      refine .of_settles run ?_
      dsimp only
      cases row' : ahead tokens behind with
      | nil =>
        have reached : Agrees stop tokens cursor _ (.ok (value, ahead tokens behind)) :=
          .done_at_once moves
        rw [row'] at reached
        exact reached
      | cons next rest =>
        dsimp only [List.head?_cons]
        split
        · exact .fails_at_once row' fun _ => rfl
        · exact .fails_at_once row' fun _ => rfl
    · rw [failed]
      refine .of_settles run ?_
      exact .failed (.at_once _) same

/-- Reading a text at the first of its tokens, up to the last of them, is parsing it. -/
theorem completeAt_tokenize (text : String) :
    ∃ answer : Attempt (Formula α),
      Settles (fun depth => completeAt (expressionAt depth) (tokenize text) 0) answer ∧
        answer.toExcept = parse text := by
  have stop : endOf (tokenize text) = utf8Length text.toList := endOf_tokensFrom text.toList
  rw [parse, ← stop]
  have reads : ReadsBelow α (endOf (tokenize text)) (tokenize text)
      ((ahead (tokenize text) 0).length + 1) := fun further _ => reads_ahead _ _ further
  exact (completeAt_agrees (expressionAt_agrees reads (Nat.lt_succ_self _))).toExcept

end Readers

end Formula

end SymbolicCalculus
