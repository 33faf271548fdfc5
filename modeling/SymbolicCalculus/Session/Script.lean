/-
Module: SymbolicCalculus.Session.Script
Layer: Sessions
Purpose: Running the lines of a text in one session. Blank lines are passed over, and a line that fails
  does not keep the others from running.
Main exports: scriptLines, Transcript, runScript, unreadableFile
-/
import SymbolicCalculus.Session

namespace SymbolicCalculus

/-- The lines of a text, the one in progress given by its characters in reverse. A line ends with a line
    feed, or with a carriage return and a line feed. -/
def linesFrom (line : List Char) : List Char → List (List Char)
  | [] => if line.isEmpty then [] else [line.reverse]
  | '\n' :: rest =>
      (match line with
        | '\r' :: before => before.reverse
        | whole => whole.reverse) :: linesFrom [] rest
  | c :: rest => linesFrom (c :: line) rest

/-- The lines of a text that are not blank. -/
def scriptLines (text : String) : List String :=
  ((linesFrom [] text.toList).filter fun line => !line.all isBlank).map String.ofList

/-- What running a script has brought. -/
structure Transcript (α : Type) where
  /-- The answers of the lines that succeeded, in order. -/
  answers : List String
  /-- The failures of the others, in order. -/
  failures : List (Failure α)
  /-- The exit status of the program. -/
  status : Nat
deriving Repr, Inhabited

namespace Transcript

variable {α : Type}

/-- Nothing has been run, and nothing has gone wrong. -/
def empty : Transcript α := ⟨[], [], 0⟩

/-- The exit status of a run that was broken off. -/
def brokenOff : Nat := 101

/-- What is printed: every answer ends its line. -/
def output (transcript : Transcript α) : String :=
  String.join (transcript.answers.map fun answer => answer ++ "\n")

end Transcript

variable {α : Type} [Numeral α]

/-- The transcript of lines that are run one after another. A simplification that does not come to rest
    breaks off the run. -/
def runLines (session : Session α) : List String → Transcript α
  | [] => .empty
  | line :: lines =>
      match session.outcome line with
      | (.ok answer, next) =>
          let rest := runLines next lines
          { rest with answers := answer :: rest.answers }
      | (.error failure, next) =>
          match failure.passLimit? with
          | some _ => ⟨[], [], Transcript.brokenOff⟩
          | none =>
              let rest := runLines next lines
              { rest with failures := failure :: rest.failures }

/-- The transcript of a text in a new session. -/
def runScript (text : String) : Transcript α := runLines .start (scriptLines text)

/-- What is said of a file that does not exist. -/
def unreadableFile (name : String) : String :=
  "could not read " ++ named name ++ ": No such file or directory (os error 2)"

end SymbolicCalculus
