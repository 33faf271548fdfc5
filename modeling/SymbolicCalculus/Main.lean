/-
Module: SymbolicCalculus.Main
Layer: Program
Purpose: The program. It runs the lines of the file that is named on the command line, or those of its
  standard input; answers go to standard output and the messages of failures to standard error.
Main exports: main
-/
import SymbolicCalculus.Double
import SymbolicCalculus.Session.Script

namespace SymbolicCalculus.Program

/-- Prints a transcript and gives its exit status. -/
def report (transcript : Transcript Double) : IO UInt32 := do
  IO.print transcript.output
  for failure in transcript.failures do
    IO.eprintln failure.cause.message
  return transcript.status.toUInt32

/-- The text on standard input. -/
partial def readAll (input : IO.FS.Stream) (before : String) : IO String := do
  let line ← input.getLine
  if line.isEmpty then return before else readAll input (before ++ line)

/-- Runs the named file, or standard input if none is named. -/
def run : List String → IO UInt32
  | [] => do report (runScript (← readAll (← IO.getStdin) ""))
  | file :: _ => do
      match ← (IO.FS.readFile file).toBaseIO with
      | .ok text => report (runScript text)
      | .error _ =>
          IO.eprintln (unreadableFile file)
          return 1

end SymbolicCalculus.Program

/-- The entry point of the program. -/
def main (arguments : List String) : IO UInt32 := SymbolicCalculus.Program.run arguments
