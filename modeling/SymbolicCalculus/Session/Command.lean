/-
Module: SymbolicCalculus.Session.Command
Layer: Sessions
Purpose: The lines that a person types. A line that begins with a colon is a command with its arguments;
  every other line is a formula. Arguments are pieces of the line and know their places in it.
Main exports: Argument, Argument.span, Argument.trimmed, Command, CommandCause, isBindable, Command.parse
-/
import SymbolicCalculus.Expr
import SymbolicCalculus.Text.Blank
import SymbolicCalculus.Text.Located
import SymbolicCalculus.Token.Lexer

namespace SymbolicCalculus

/-- A piece of a line, and the place at which it begins. -/
structure Argument where
  text : String
  offset : Nat
deriving DecidableEq, Repr, Inhabited

namespace Argument

/-- The region of the line that the argument takes. -/
def span (argument : Argument) : Span :=
  ⟨argument.offset, argument.offset + utf8Length argument.text.toList⟩

/-- The argument without white space around it. -/
def trimmed (argument : Argument) : Argument :=
  let cs := argument.text.toList
  ⟨String.ofList (trim cs), argument.offset + utf8Length (cs.takeWhile isBlank)⟩

/-- The argument is white space only. -/
def isEmpty (argument : Argument) : Bool := argument.text.toList.all isBlank

end Argument

/-- What a line asks for. -/
inductive Command where
  /-- Simplify a formula, and give its value if it has one. -/
  | eval (formula : Argument)
  /-- Give a variable the value of a formula. -/
  | assign (name value : Argument)
  /-- List the variables. -/
  | vars
  /-- Simplify a formula and list the steps. -/
  | steps (formula : Argument)
  /-- Measure angles in the given unit from now on. -/
  | measure (unit : AngleUnit)
deriving DecidableEq, Repr, Inhabited

/-- Why a line is no command. -/
inductive CommandCause where
  /-- There is no command of the name. -/
  | unknownCommand (name : String)
  /-- The command needs an argument; it is used as told. -/
  | missingArgument (command usage : String)
  /-- The name cannot be that of a variable. -/
  | invalidVariableName (name : String)
deriving DecidableEq, Repr, Inhabited

/-- The name can be given a value: it is written like a name, and it is not the name of a constant, a
    function or an operation. -/
def isBindable (name : String) : Bool :=
  (match name.toList with
    | [] => false
    | first :: others => isNameStart first && others.all isNameChar)
  && !isConstantName name
  && (Elementary.ofName? name).isNone
  && name != integralName
  && name != derivativeName

namespace Command

/-- The command that binds a variable, from what stands behind its name. Everything behind the first
    equals sign is the value. -/
def parseAssignment (place : Span) (arguments : Argument) : Except (Located CommandCause) Command :=
  let missing : Located CommandCause := ⟨place, .missingArgument "let" ":let <name> = <expr>"⟩
  let cs := arguments.text.toList
  let before := cs.takeWhile (· != '=')
  match cs.dropWhile (· != '=') with
  | [] => .error missing
  | _ :: after =>
      let name := Argument.trimmed ⟨String.ofList before, arguments.offset⟩
      let value : Argument := ⟨String.ofList after, arguments.offset + utf8Length before + 1⟩
      if name.text.isEmpty || value.isEmpty then .error missing
      else if isBindable name.text then .ok (.assign name value)
      else .error ⟨name.span, .invalidVariableName name.text⟩

/-- The command that a line holds. -/
def parse (line : String) : Except (Located CommandCause) Command :=
  let cs := line.toList
  match cs.dropWhile isBlank with
  | ':' :: rest =>
      let indent := utf8Length (cs.takeWhile isBlank)
      let name := rest.takeWhile fun c => !isBlank c
      let place : Span := ⟨indent, indent + 1 + utf8Length name⟩
      let arguments : Argument := ⟨String.ofList (rest.dropWhile fun c => !isBlank c), place.stop⟩
      match String.ofList name with
      | "let" => parseAssignment place arguments
      | "vars" => .ok .vars
      | "steps" =>
          if arguments.isEmpty then .error ⟨place, .missingArgument "steps" ":steps <expr>"⟩
          else .ok (.steps arguments)
      | "deg" => .ok (.measure .degrees)
      | "rad" => .ok (.measure .radians)
      | other => .error ⟨place, .unknownCommand other⟩
  | _ => .ok (.eval ⟨line, 0⟩)

end Command

end SymbolicCalculus
