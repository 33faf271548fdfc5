/-
Module: SymbolicCalculus.Proofs.Session.Frame
Layer: Proofs
Purpose: What a line may do to a session. Only a value given to a variable and another unit of angles are
  remembered, and both only if the line succeeds, since everything that can fail is done before anything
  is changed. So lines that fail, blank lines and questions can be taken out of a conversation or of a
  script, and no other line notices.
Main exports: Command.remembers, Session.outcome_eq, Session.answerTo, Session.after, Session.run_eq,
  Session.Frame, Session.frame, Session.IsIdle, Session.visitAll, kept, Session.Deletable,
  Session.visitAll_kept, runScript_eq, Session.frame_and_deletion
-/
import SymbolicCalculus.Calculus.Equations
import SymbolicCalculus.Proofs.Double.Writing
import SymbolicCalculus.Session.Script

namespace SymbolicCalculus

/-! ### Bindings -/

namespace Context

variable {α : Type}

theorem filter_bind (name : String) (value : α) (bindings : List (String × α)) :
    (bind name value bindings).filter (fun binding => binding.1 != name) =
      bindings.filter fun binding => binding.1 != name := by
  induction bindings with
  | nil => simp [bind]
  | cons first rest ih =>
    obtain ⟨key, old⟩ := first
    unfold bind
    split
    · simp
    · split
      · next same => simp [same]
      · simp only [List.filter_cons, ih]

/-- Giving a variable a value changes nothing about the others. -/
theorem remove_set (context : Context α) (name : String) (value : α) :
    (context.set name value).remove name = context.remove name := by
  simp only [remove, set, filter_bind]

end Context

/-- The command changes the session if it succeeds. -/
def Command.remembers : Command → Bool
  | .assign _ _ => true
  | .measure _ => true
  | .eval _ | .vars | .steps _ => false

namespace Session

variable {α : Type}

/-! ### Actions -/

/-- After a question that fails, nothing else is done. -/
theorem run_ask_bind {β γ : Type} (question : Session α → Except (Failure α) β)
    (next : β → Action α γ) (session : Session α) :
    (ask question >>= next).run.run session =
      match question session with
      | .ok x => (next x).run.run session
      | .error failure => (.error failure, session) := by
  change ExceptT.bindCont next (question session) session = _
  cases question session <;> rfl

variable [Numeral α]

/-- A line that holds no command changes nothing. -/
theorem outcome_eq (session : Session α) (line : String) :
    session.outcome line =
      match Command.parse line with
      | .ok command => (perform command).run.run session
      | .error fault => (.error (.ofCommand fault), session) := by
  refine (run_ask_bind _ _ session).trans ?_
  cases Command.parse line <;> rfl

/-- A variable is given its value after the value has been found. -/
theorem run_assign (session : Session α) (name value : Argument) :
    (perform (.assign name value)).run.run session =
      match session.valueOf value with
      | .ok x => (.ok (equation name.text x), ⟨session.context.set name.text x⟩)
      | .error failure => (.error failure, session) := by
  refine (run_ask_bind _ _ session).trans ?_
  cases session.valueOf value <;> rfl

/-- Another unit of angles is named as the session has it then. -/
theorem run_measure (session : Session α) (unit : AngleUnit) :
    (perform (.measure unit)).run.run session =
      (.ok ("trig mode: " ++ unit.name), session.measureIn unit) := rfl

/-! ### One line -/

/-- The answer to a line, or the failure. -/
def answerTo (session : Session α) (line : String) : Except (Failure α) String :=
  (session.outcome line).1

/-- The session after a line. -/
def after (session : Session α) (line : String) : Session α := (session.outcome line).2

/-- The program goes on with the session after the line if the line has an answer. -/
theorem run_eq (session : Session α) (line : String) :
    session.run line = (session.answerTo line).map fun answer => (answer, session.after line) := by
  rw [run, answerTo, after]
  obtain ⟨answers, next⟩ := session.outcome line
  cases answers <;> rfl

section Lines

variable {session : Session α} {line : String}

theorem outcome_of_assign {name value : Argument}
    (parsed : Command.parse line = .ok (.assign name value)) :
    session.outcome line =
      match session.valueOf value with
      | .ok x => (.ok (equation name.text x), ⟨session.context.set name.text x⟩)
      | .error failure => (.error failure, session) := by
  rw [outcome_eq, parsed]
  exact run_assign session name value

theorem outcome_of_measure {unit : AngleUnit} (parsed : Command.parse line = .ok (.measure unit)) :
    session.outcome line = (.ok ("trig mode: " ++ unit.name), session.measureIn unit) := by
  rw [outcome_eq, parsed]
  exact run_measure session unit

/-- A question changes nothing, whether it is answered or fails. -/
theorem after_of_forgets {command : Command} (parsed : Command.parse line = .ok command)
    (forgets : command.remembers = false) : session.after line = session := by
  rw [after, outcome_eq, parsed]
  cases command with
  | eval | vars | steps => rfl
  | assign | measure => cases forgets

/-- A line that fails changes nothing. -/
theorem after_of_error {failure : Failure α} (fails : session.answerTo line = .error failure) :
    session.after line = session := by
  cases parsed : Command.parse line with
  | error fault => rw [after, outcome_eq, parsed]
  | ok command =>
    cases command with
    | eval | vars | steps => exact after_of_forgets parsed rfl
    | assign name value =>
      rw [answerTo, outcome_of_assign parsed] at fails
      rw [after, outcome_of_assign parsed]
      cases has : session.valueOf value with
      | error => rfl
      | ok x =>
        rw [has] at fails
        cases fails
    | measure unit =>
      rw [answerTo, outcome_of_measure parsed] at fails
      cases fails

/-- A variable that is given a value is given the one that is answered, found in the session before. -/
theorem after_of_assign {name value : Argument} {answer : String}
    (parsed : Command.parse line = .ok (.assign name value))
    (succeeds : session.answerTo line = .ok answer) :
    ∃ x, session.valueOf value = .ok x ∧ answer = equation name.text x ∧
      session.after line = ⟨session.context.set name.text x⟩ := by
  rw [answerTo, outcome_of_assign parsed] at succeeds
  rw [after, outcome_of_assign parsed]
  cases has : session.valueOf value with
  | error =>
    rw [has] at succeeds
    cases succeeds
  | ok x =>
    rw [has] at succeeds
    cases succeeds
    exact ⟨x, rfl, rfl, rfl⟩

end Lines

/-- What a line may change: nothing if it fails; one variable if it gives that a value, which is the one it
    answers and was found before; the unit of angles if it sets that; nothing otherwise. -/
structure Frame (session : Session α) (line : String) : Prop where
  failing : ∀ failure, session.answerTo line = .error failure → session.after line = session
  assigning : ∀ name value answer, Command.parse line = .ok (.assign name value) →
    session.answerTo line = .ok answer →
      ∃ x, session.valueOf value = .ok x ∧ answer = equation name.text x ∧
        (session.after line).context.get? name.text = some x ∧
        (∀ other, other ≠ name.text →
          (session.after line).context.get? other = session.context.get? other) ∧
        (session.after line).context.remove name.text = session.context.remove name.text
  measuring : ∀ unit, Command.parse line = .ok (.measure unit) →
    (session.after line).context = { session.context with unit := unit }
  telling : ∀ command, Command.parse line = .ok command → command.remembers = false →
    session.after line = session

theorem frame (session : Session α) (line : String) : Frame session line where
  failing _ fails := after_of_error fails
  assigning name value answer parsed succeeds := by
    obtain ⟨x, has, tells, leads⟩ := after_of_assign parsed succeeds
    rw [leads]
    refine ⟨x, has, tells, (Context.get?_set _ _ _ _).trans (if_pos rfl), fun other different => ?_,
      Context.remove_set _ _ _⟩
    exact (Context.get?_set _ _ _ _).trans (if_neg different.symm)
  measuring unit parsed := by
    rw [after, outcome_of_measure parsed]
    rfl
  telling _ parsed forgets := after_of_forgets parsed forgets

/-! ### Lines that can be deleted -/

/-- The line is white space only. -/
def isBlankLine (line : String) : Bool := line.toList.all isBlank

/-- The line is blank, or it fails, or it succeeds and is neither an assignment nor the choice of a unit. -/
inductive IsIdle (session : Session α) (line : String) : Prop where
  | blank (all : isBlankLine line = true)
  | failing {failure : Failure α} (fails : session.answerTo line = .error failure)
  | telling {command : Command} {answer : String} (parsed : Command.parse line = .ok command)
      (forgets : command.remembers = false) (succeeds : session.answerTo line = .ok answer)

/-- What becomes of a line of a script: nothing at all if it is blank. -/
def visit (session : Session α) (line : String) :
    Option (Except (Failure α) String) × Session α :=
  if isBlankLine line then (none, session) else (some (session.answerTo line), session.after line)

theorem visit_of_blank (session : Session α) {line : String} (blank : isBlankLine line = true) :
    session.visit line = (none, session) := if_pos blank

theorem visit_of_filled (session : Session α) {line : String} (filled : isBlankLine line = false) :
    session.visit line = (some (session.answerTo line), session.after line) :=
  if_neg (Bool.eq_false_iff.1 filled)

/-- The answers and failures of lines that are run one after another, and the session in the end. -/
def visitAll (session : Session α) :
    List String → List (Option (Except (Failure α) String)) × Session α
  | [] => ([], session)
  | line :: lines =>
      let first := session.visit line
      let others := visitAll first.2 lines
      (first.1 :: others.1, others.2)

/-- An idle line leaves the session as it is. -/
theorem visit_of_idle {session : Session α} {line : String} (idle : IsIdle session line) :
    (session.visit line).2 = session := by
  cases blank : isBlankLine line with
  | true => rw [visit_of_blank session blank]
  | false =>
    rw [visit_of_filled session blank]
    cases idle with
    | blank all =>
      rw [blank] at all
      cases all
    | failing fails => exact after_of_error fails
    | telling parsed forgets _ => exact after_of_forgets parsed forgets

end Session

/-- What is left of a row when those without a mark are deleted. -/
def kept {β : Type} (marked : List (β × Bool)) : List β := (marked.filter Prod.snd).map Prod.fst

namespace Session

variable {α : Type} [Numeral α]

/-- Every line without a mark is idle in the session in which it is run. -/
def Deletable (session : Session α) : List (String × Bool) → Prop
  | [] => True
  | (line, mark) :: others =>
      (mark = false → IsIdle session line) ∧ Deletable (session.visit line).2 others

/-- Idle lines can be deleted: the others have the same answers and failures, and lead to the same session.
    By induction on the lines; both runs go on in the same session after each of them. -/
theorem visitAll_kept (marked : List (String × Bool)) (session : Session α)
    (deletable : session.Deletable marked) :
    session.visitAll (kept marked) =
      (kept ((session.visitAll (marked.map Prod.fst)).1.zip (marked.map Prod.snd)),
        (session.visitAll (marked.map Prod.fst)).2) := by
  induction marked generalizing session with
  | nil => rfl
  | cons first others ih =>
    obtain ⟨line, mark⟩ := first
    obtain ⟨idle, rest⟩ := deletable
    have same := ih _ rest
    cases mark with
    | true =>
      have keeps : kept ((line, true) :: others) = line :: kept others := rfl
      rw [keeps, visitAll, same]
      rfl
    | false =>
      have deletes : kept ((line, false) :: others) = kept others := rfl
      rw [visit_of_idle (idle rfl)] at same
      rw [deletes, same, List.map_cons, visitAll, visit_of_idle (idle rfl)]
      rfl

end Session

/-! ### Scripts -/

/-- All lines of a text, the blank ones among them. -/
def textLines (text : String) : List String := (linesFrom [] text.toList).map String.ofList

theorem scriptLines_eq (text : String) :
    scriptLines text = (textLines text).filter fun line => !Session.isBlankLine line := by
  unfold scriptLines textLines
  rw [List.filter_map]
  have blank : (fun line => !Session.isBlankLine line) ∘ String.ofList =
      fun line : List Char => !line.all isBlank := by
    funext line
    simp [Session.isBlankLine]
  rw [blank]

variable {α : Type}

/-- The transcript of a run that was not broken off. -/
def Transcript.ofOutcomes (outcomes : List (Option (Except (Failure α) String))) : Transcript α where
  answers := outcomes.filterMap fun
    | some (.ok answer) => some answer
    | _ => none
  failures := outcomes.filterMap fun
    | some (.error failure) => some failure
    | _ => none
  status := 0

/-- No simplification has reached its pass limit. -/
def NoPassLimit (outcomes : List (Option (Except (Failure α) String))) : Prop :=
  ∀ failure, some (.error failure) ∈ outcomes → failure.passLimit? = none

theorem mem_of_mem_kept {β : Type} {x : β} {marked : List (β × Bool)} (mem : x ∈ kept marked) :
    x ∈ marked.map Prod.fst := by
  obtain ⟨entry, inside, rfl⟩ := List.mem_map.1 mem
  exact List.mem_map_of_mem (List.mem_filter.1 inside).1

variable [Numeral α]

/-- The transcript of lines holds what they answer, and their failures. -/
theorem runLines_eq (lines : List String) (session : Session α)
    (unbroken : NoPassLimit (session.visitAll lines).1) :
    runLines session (lines.filter fun line => !Session.isBlankLine line) =
      .ofOutcomes (session.visitAll lines).1 := by
  induction lines generalizing session with
  | nil => rfl
  | cons line lines ih =>
    rw [Session.visitAll] at unbroken ⊢
    have others := ih (session.visit line).2 fun failure mem =>
      unbroken failure (List.mem_cons_of_mem _ mem)
    cases blank : Session.isBlankLine line with
    | true =>
      rw [session.visit_of_blank blank] at others ⊢
      rw [List.filter_cons_of_neg (by simp [blank])]
      exact others
    | false =>
      rw [session.visit_of_filled blank] at unbroken others ⊢
      rw [List.filter_cons_of_pos (by simp [blank]), runLines]
      have heard : session.outcome line = (session.answerTo line, session.after line) := rfl
      rw [heard]
      cases answers : session.answerTo line with
      | ok answer =>
        simp only [others]
        rfl
      | error failure =>
        have settled : failure.passLimit? = none :=
          unbroken failure (answers ▸ List.mem_cons_self ..)
        simp only [settled, others]
        rfl

/-- A script without pass limits reached answers what its lines answer. -/
theorem runScript_eq (text : String)
    (unbroken : NoPassLimit ((.start : Session α).visitAll (textLines text)).1) :
    runScript text = .ofOutcomes ((.start : Session α).visitAll (textLines text)).1 := by
  rw [runScript, scriptLines_eq]
  exact runLines_eq _ _ unbroken

namespace Session

/-- Lines change a session only as they say, and only if they succeed: every line keeps to its frame. So
    blank lines, failing lines and those that neither give a variable a value nor choose a unit can be
    deleted from any sequence of lines, and the answers and failures of the others and the session in the
    end stay the same. The same holds of scripts: a text whose lines are those that are left leads to the
    same session, and its transcript is what is left of the answers and failures. -/
theorem frame_and_deletion :
    (∀ (session : Session α) (line : String), Frame session line) ∧
    (∀ (session : Session α) (marked : List (String × Bool)), session.Deletable marked →
      session.visitAll (kept marked) =
        (kept ((session.visitAll (marked.map Prod.fst)).1.zip (marked.map Prod.snd)),
          (session.visitAll (marked.map Prod.fst)).2)) ∧
    ∀ (text text' : String) (marked : List (String × Bool)),
      textLines text = marked.map Prod.fst → textLines text' = kept marked →
      (start : Session α).Deletable marked →
      NoPassLimit ((start : Session α).visitAll (textLines text)).1 →
        ((start : Session α).visitAll (textLines text')).2 = (start.visitAll (textLines text)).2 ∧
        runScript text = (.ofOutcomes (start.visitAll (textLines text)).1 : Transcript α) ∧
        runScript text' = (.ofOutcomes
          (kept ((start.visitAll (textLines text)).1.zip (marked.map Prod.snd))) : Transcript α) := by
  refine ⟨frame, fun session marked deletable => visitAll_kept marked session deletable, ?_⟩
  intro text text' marked lines left deletable unbroken
  have same := visitAll_kept marked start deletable
  rw [← lines, ← left] at same
  refine ⟨by rw [same], runScript_eq text unbroken, ?_⟩
  have answers : ((start : Session α).visitAll (textLines text')).1 =
      kept ((start.visitAll (textLines text)).1.zip (marked.map Prod.snd)) := by rw [same]
  rw [← answers]
  refine runScript_eq text' fun failure mem => unbroken failure ?_
  rw [answers] at mem
  have inside := mem_of_mem_kept mem
  obtain ⟨entry, both, found⟩ := List.mem_map.1 inside
  rw [← found]
  exact (List.of_mem_zip both).1

/-- A blank line, an unknown command and a question between an assignment and the choice of a unit. -/
theorem frame_and_deletion_settings :
    let text := ":let a =2\n\n:quit\n:vars\n:deg\n"
    let marked := [(":let a =2", true), ("", false), (":quit", false), (":vars", false), (":deg", true)]
    textLines text = marked.map Prod.fst ∧ (start : Session Double).Deletable marked ∧
      (runScript text : Transcript Double).answers = ["a = 2", "a = 2", "trig mode: degrees"] ∧
      runScript ":let a =2\n:deg\n" =
        (⟨["a = 2", "trig mode: degrees"], [], 0⟩ : Transcript Double) := by
  intro text marked
  let two : Expr Double := .number (.ofFloat 2)
  have lines : textLines text = marked.map Prod.fst := by decide +kernel
  have left : textLines ":let a =2\n:deg\n" = kept marked := by decide +kernel
  have reads : Expr.parse "2" = .ok two := by
    have finite : Scalar.isFinite (Double.ofFloat 2) = true := by decide +kernel
    have written : two.text = "2" := by decide +kernel
    rw [← written]
    refine (Expr.Printable.number finite).parse_text fun value mem => ?_
    rw [List.mem_singleton.1 mem]
    exact Double.writtenWithSign finite (by decide +kernel)
  have has : (start : Session Double).valueOf ⟨"2", 8⟩ = .ok (.ofFloat 2) := by
    rw [valueOf, prepare]
    simp only [reads, two, Expr.resolve_number]
    rfl
  let assigned : Session Double := ⟨Context.empty.set "a" (.ofFloat 2)⟩
  have assigns : start.visit ":let a =2" = (some (.ok "a = 2"), assigned) := by
    have parsed : Command.parse ":let a =2" = .ok (.assign ⟨"a", 5⟩ ⟨"2", 8⟩) := by decide +kernel
    have answer : "a = 2" = equation "a" (Double.ofFloat 2) := by decide +kernel
    rw [visit_of_filled _ (by decide), answerTo, after, outcome_of_assign parsed, has, answer]
    rfl
  have lists : assigned.listing = "a = 2" := by decide +kernel
  have visited : start.visitAll (textLines text) =
      ([some (.ok "a = 2"), none, some (.error (.ofCommand ⟨⟨0, 5⟩, .unknownCommand "quit"⟩)),
        some (.ok "a = 2"), some (.ok "trig mode: degrees")], assigned.measureIn .degrees) := by
    rw [lines, List.map_cons, visitAll, assigns, ← lists]
    rfl
  have deletable : (start : Session Double).Deletable marked := by
    refine ⟨(nomatch ·), ?_⟩
    rw [assigns]
    refine ⟨fun _ => .blank rfl, fun _ => .failing rfl, fun _ => ?_, (nomatch ·), trivial⟩
    exact .telling rfl rfl rfl
  have unbroken : NoPassLimit ((start : Session Double).visitAll (textLines text)).1 := by
    intro failure mem
    rw [visited] at mem
    simp only [List.mem_cons, List.not_mem_nil, Option.some.injEq, reduceCtorEq, or_false, false_or,
      Except.error.injEq] at mem
    rw [mem]
    rfl
  obtain ⟨-, whole, rest⟩ := frame_and_deletion.2.2 text _ marked lines left deletable unbroken
  refine ⟨lines, deletable, ?_, ?_⟩
  · rw [whole, visited]
    rfl
  · rw [rest, visited]
    rfl

end Session

end SymbolicCalculus
