/-
Module: SymbolicCalculus.Failure
Layer: Sessions
Purpose: All reasons for which a request can fail, and their wording. A failure has a message of one
  line; most have a label for the place in the text that they point at, and many a piece of advice.
Main exports: Cause, Cause.message, Cause.label?, Cause.advice?, Failure, Failure.shift
-/
import SymbolicCalculus.Calculus.Cause
import SymbolicCalculus.Expr.Evaluation
import SymbolicCalculus.Expr.Printer
import SymbolicCalculus.Formula.Meaning
import SymbolicCalculus.Session.Command

namespace SymbolicCalculus

/-- Why a request fails. -/
inductive Cause (α : Type) where
  | parse (cause : ParseCause)
  | meaning (cause : MeaningCause)
  | evaluation (cause : EvaluationCause)
  | calculus (cause : CalculusCause α)
  | command (cause : CommandCause)
deriving Repr

instance {α : Type} : Inhabited (Cause α) := ⟨.parse default⟩

/-- A name as it stands in a sentence. -/
def named (name : String) : String := "`" ++ name ++ "`"

/-- Names as they stand in a sentence, one after another. -/
def listed (names : List String) : String := String.intercalate ", " (names.map named)

namespace ParseCause

/-- The message in one line. -/
def message : ParseCause → String
  | emptyExpression => "no expression to parse"
  | unexpectedEnd => "unexpected end of file"
  | expectedEnd => "expected end of file"
  | unexpectedToken _ _ => "unexpected token"
  | unclosedParenthesis _ => "unclosed parenthesis"
  | emptyParenthesis => "missing expression inside parenthesis"
  | numberOutOfRange => "number is out of range"

/-- What is said of the place in the text. -/
def label : ParseCause → String
  | emptyExpression => "add an expression here"
  | unexpectedEnd => "you might need to add another expression here"
  | expectedEnd => "I could not understand the remaining expression here"
  | unexpectedToken expected _ =>
      "expected one of: " ++ String.intercalate ", " (expected.map TokenKind.label)
  | unclosedParenthesis _ => "this parenthesis is not closed"
  | emptyParenthesis => "add an expression here"
  | numberOutOfRange => "this literal"

/-- What can be done. -/
def advice? : ParseCause → Option String
  | expectedEnd => some "terms must be joined by an operator; write `2*x` instead of `2x`"
  | unexpectedToken _ found => some ("found " ++ found.label)
  | unclosedParenthesis true => some "add a closing parenthesis `)` somewhere after this"
  | unclosedParenthesis false => some "add an opening parenthesis `(` somewhere before this"
  | numberOutOfRange => some "literals must be finite 64-bit floating-point numbers"
  | emptyExpression | unexpectedEnd | emptyParenthesis => none

end ParseCause

namespace MeaningCause

/-- The message in one line. -/
def message : MeaningCause → String
  | unknownFunction name _ => "the " ++ named name ++ " function does not exist"
  | wrongArity name _ _ => "wrong number of arguments given to the " ++ named name ++ " function"
  | expectedVariable name => "expected a variable as the second argument of " ++ named name

/-- What is said of the place in the text. -/
def label : MeaningCause → String
  | unknownFunction _ _ => "this function"
  | wrongArity _ _ _ => "this function call"
  | expectedVariable _ => "this should be a variable"

/-- What can be done. -/
def advice : MeaningCause → String
  | unknownFunction _ [] => "functions must be one of the built-in functions, or `int` / `diff`"
  | unknownFunction _ [other] => "did you mean the " ++ named other ++ " function?"
  | unknownFunction _ others => "did you mean one of these functions? " ++ listed others
  | wrongArity name expected given =>
      "the " ++ named name ++ " function takes " ++ Nat.repr expected ++ " argument(s); there are "
        ++ Nat.repr given ++ " argument(s) provided here"
  | expectedVariable name => "for example: " ++ name ++ "(x^2, x)"

end MeaningCause

namespace EvaluationCause

/-- The message in one line. -/
def message : EvaluationCause → String
  | undefinedVariable name _ => named name ++ " is not defined"
  | unresolvedIntegral => "cannot evaluate an unresolved integral"
  | unresolvedCall name => "cannot evaluate an unresolved call to " ++ named name

/-- What is said of the place in the text. -/
def label : EvaluationCause → String
  | undefinedVariable _ _ => "this variable"
  | unresolvedIntegral => "this integral"
  | unresolvedCall _ => "this call"

/-- What can be done. -/
def advice : EvaluationCause → String
  | undefinedVariable name [] => "give " ++ name ++ " a value before evaluating the expression"
  | undefinedVariable _ others => "did you mean " ++ listed others ++ "?"
  | unresolvedIntegral =>
      "resolve the expression first, which replaces `int(...)` with its antiderivative"
  | unresolvedCall name =>
      "resolve the expression first, which replaces " ++ named (name ++ "(...)")
        ++ " with its result"

end EvaluationCause

/-- What is said when a simplification does not come to rest. -/
def PassLimit.message {α : Type} [Numeral α] (limit : PassLimit α) : String :=
  "simplification of " ++ named limit.expr.text ++ " did not terminate after "
    ++ Nat.repr limit.passes ++ " passes (last: " ++ named limit.last.text ++ ")"

namespace CalculusCause

variable {α : Type}

/-- The message in one line. -/
def message [Numeral α] : CalculusCause α → String
  | unsupportedDerivative name =>
      "cannot differentiate the " ++ named name ++ " function symbolically"
  | nonIntegrable expr => "could not find an antiderivative of " ++ named expr.text
  | passLimit limit => limit.message

/-- What can be done. -/
def advice? : CalculusCause α → Option String
  | unsupportedDerivative _ =>
      some "a numerical derivative may still be computed by evaluating the expression"
  | nonIntegrable _ =>
      some ("products of two expressions that depend on the variable, and most compositions of "
        ++ "functions, are not supported")
  | passLimit _ => none

end CalculusCause

namespace CommandCause

/-- The message in one line. -/
def message : CommandCause → String
  | unknownCommand name => "unknown command " ++ named (":" ++ name)
  | missingArgument command _ => "missing argument to " ++ named (":" ++ command)
  | invalidVariableName name => named name ++ " cannot be used as a variable name"

/-- What is said of the place in the text. -/
def label : CommandCause → String
  | unknownCommand _ => "this command"
  | missingArgument _ _ => "this command needs an argument"
  | invalidVariableName _ => "this name"

/-- What can be done. -/
def advice : CommandCause → String
  | unknownCommand _ =>
      "the available commands are " ++ listed [":let", ":vars", ":steps", ":deg", ":rad"]
  | missingArgument _ usage => "usage: " ++ usage
  | invalidVariableName _ =>
      "variable names start with a letter or `_`, and cannot be the name of a constant or function"

end CommandCause

namespace Cause

variable {α : Type}

/-- The message in one line. -/
def message [Numeral α] : Cause α → String
  | parse cause => cause.message
  | meaning cause => cause.message
  | evaluation cause => cause.message
  | calculus cause => cause.message
  | command cause => cause.message

/-- What is said of the place in the text, for the causes that have one. -/
def label? : Cause α → Option String
  | parse cause => some cause.label
  | meaning cause => some cause.label
  | evaluation cause => some cause.label
  | calculus _ => none
  | command cause => some cause.label

/-- What can be done. -/
def advice? : Cause α → Option String
  | parse cause => cause.advice?
  | meaning cause => some cause.advice
  | evaluation cause => some cause.advice
  | calculus cause => cause.advice?
  | command cause => some cause.advice

end Cause

/-- A request that failed: the cause, and the regions of the text that it is about. A failure on the way
    from an expression to its result is about none. -/
structure Failure (α : Type) where
  cause : Cause α
  spans : List Span
deriving Repr

namespace Failure

variable {α : Type}

instance : Inhabited (Failure α) := ⟨⟨default, []⟩⟩

/-- A text that is no formula, or a formula that stands for no expression. -/
def ofFormula (fault : Located FormulaCause) : Failure α :=
  match fault.cause with
  | .parse cause => ⟨.parse cause, [fault.span]⟩
  | .meaning cause => ⟨.meaning cause, [fault.span]⟩

/-- A text that is no formula. -/
def ofParse (fault : Located ParseCause) : Failure α := ⟨.parse fault.cause, [fault.span]⟩

/-- A line that is no command. -/
def ofCommand (fault : Located CommandCause) : Failure α := ⟨.command fault.cause, [fault.span]⟩

/-- An expression that has no value. -/
def ofEvaluation (cause : EvaluationCause) : Failure α := ⟨.evaluation cause, []⟩

/-- An expression that an operation of the calculus cannot be carried out on. -/
def ofCalculus (cause : CalculusCause α) : Failure α := ⟨.calculus cause, []⟩

/-- An expression whose simplification does not come to rest. -/
def ofPassLimit (limit : PassLimit α) : Failure α := ⟨.calculus (.passLimit limit), []⟩

/-- The same failure in a longer text in which `offset` bytes stand before. -/
def shift (offset : Nat) (failure : Failure α) : Failure α :=
  ⟨failure.cause, failure.spans.map (Span.shift offset)⟩

/-- The simplification that did not come to rest, if the request failed for that. -/
def passLimit? (failure : Failure α) : Option (PassLimit α) :=
  match failure.cause with
  | .calculus (.passLimit limit) => some limit
  | _ => none

end Failure

end SymbolicCalculus
