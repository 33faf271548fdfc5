/-
Module: SymbolicCalculus.Session
Layer: Sessions
Purpose: A conversation in lines. A session remembers the variables that were given values and the unit
  of angles; a line may change them while it is carried out.
Main exports: Session, Session.prepare, Session.evaluated, Session.Action, Session.execute,
  Session.outcome, Session.run
-/
import SymbolicCalculus.Calculus
import SymbolicCalculus.Failure

namespace SymbolicCalculus

/-- What is remembered from line to line. -/
structure Session (α : Type) where
  context : Context α
deriving Repr, Inhabited

/-- A text in several lines. -/
def inLines (lines : List String) : String := String.intercalate "\n" lines

namespace Session

variable {α : Type}

/-- A session without variables, in radians. -/
def start : Session α := ⟨.empty⟩

variable [Numeral α]

/-- The expression of an argument with all its calls carried out. Places in the argument become places
    in the line. -/
def prepare (argument : Argument) : Except (Failure α) (Expr α) :=
  match Expr.parse argument.text with
  | .error fault => .error (.shift argument.offset (.ofFormula fault))
  | .ok e =>
      match e.resolve with
      | .error cause => .error (.ofCalculus cause)
      | .ok resolved => .ok resolved

/-- The line that tells the value of an expression. -/
def equation (left : String) (value : α) : String := left ++ " = " ++ Numeral.text value

/-- What is answered to a simplified expression: its value too, if it is more than a number and all its
    variables have values. -/
def answer (context : Context α) (simplified : Expr α) : Except (Failure α) String :=
  match simplified with
  | .number _ => .ok simplified.text
  | _ =>
      if simplified.freeSymbols.all fun name => (context.get? name).isSome then
        match simplified.evaluate context with
        | .ok value => .ok (equation simplified.text value)
        | .error cause => .error (.ofEvaluation cause)
      else .ok simplified.text

/-- The answer to a formula. -/
def evaluated (session : Session α) (argument : Argument) : Except (Failure α) String :=
  match prepare argument with
  | .error failure => .error failure
  | .ok e =>
      match e.simplify with
      | .error limit => .error (.ofPassLimit limit)
      | .ok simplified => answer session.context simplified

/-- The value of a formula. -/
def valueOf (session : Session α) (argument : Argument) : Except (Failure α) α :=
  match prepare argument with
  | .error failure => .error failure
  | .ok e =>
      match e.evaluate session.context with
      | .ok value => .ok value
      | .error cause => .error (.ofEvaluation cause)

/-- The variables and their values, one in a line. -/
def listing (session : Session α) : String :=
  if session.context.bindings.isEmpty then "no variables defined"
  else inLines (session.context.bindings.map fun binding => equation binding.1 binding.2)

/-- Steps with their numbers, beginning with the given one. -/
def numbered (first : Nat) : List Rule → List String
  | [] => []
  | rule :: rules => (Nat.repr first ++ ". " ++ rule.identity) :: numbered (first + 1) rules

/-- The steps of a simplification and its result, one in a line. -/
def stepsOf (argument : Argument) : Except (Failure α) String :=
  match prepare argument with
  | .error failure => .error failure
  | .ok e =>
      match e.simplifyWithin usualPassLimit with
      | .error limit => .error (.ofPassLimit limit)
      | .ok simplified =>
          .ok (inLines (numbered 1 simplified.steps ++ [simplified.result.text]))

/-- The session in which angles have another unit. -/
def measureIn (session : Session α) (unit : AngleUnit) : Session α :=
  ⟨{ session.context with unit := unit }⟩

/-! ### Commands and lines -/

/-- Work on a session that may fail. What was done to the session before a failure stays done. -/
abbrev Action (α β : Type) := ExceptT (Failure α) (StateM (Session α)) β

/-- What the session answers as it is; nothing is done to it. -/
def ask {β : Type} (question : Session α → Except (Failure α) β) : Action α β :=
  ExceptT.mk fun session => pure (question session, session)

/-- Carries out a command. -/
def perform : Command → Action α String
  | .eval formula => ask fun session => session.evaluated formula
  | .assign name value => do
      let x ← ask fun session => session.valueOf value
      modify fun session => ⟨session.context.set name.text x⟩
      return equation name.text x
  | .vars => ask fun session => .ok session.listing
  | .steps formula => ask fun _ => stepsOf formula
  | .measure unit => do
      modify fun session => session.measureIn unit
      ask fun session => .ok ("trig mode: " ++ session.context.unit.name)

/-- Carries out the command that a line holds. -/
def execute (line : String) : Action α String := do
  let command ← ask fun _ => (Command.parse line).mapError .ofCommand
  perform command

/-- The answer to a line or its failure, and the session after it. -/
def outcome (session : Session α) (line : String) : Except (Failure α) String × Session α :=
  (execute line).run.run session

/-- What a line answers, and the session after it. -/
def run (session : Session α) (line : String) : Except (Failure α) (String × Session α) :=
  match session.outcome line with
  | (.ok answer, next) => .ok (answer, next)
  | (.error failure, _) => .error failure

end Session

end SymbolicCalculus
