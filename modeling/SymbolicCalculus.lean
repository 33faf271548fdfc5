import SymbolicCalculus.Calculus.Equations
import SymbolicCalculus.Compile
import SymbolicCalculus.Expr.Traversal
import SymbolicCalculus.Formula.Printer
import SymbolicCalculus.Main
import SymbolicCalculus.Proofs.Formula.Grammar
import SymbolicCalculus.Proofs.Formula.Parsing
import SymbolicCalculus.Proofs.Expr.RoundTrip
import SymbolicCalculus.Proofs.Double.Bits
import SymbolicCalculus.Proofs.Double.Writing
import SymbolicCalculus.Proofs.Exact.Meaning
import SymbolicCalculus.Proofs.Simplify.Meaning
import SymbolicCalculus.Proofs.Calculus.Derivative
import SymbolicCalculus.Proofs.Calculus.Antiderivative
import SymbolicCalculus.Proofs.Calculus.Recursion
import SymbolicCalculus.Proofs.Double.Arithmetic
import SymbolicCalculus.Proofs.Simplify.Rest
import SymbolicCalculus.Proofs.Calculus.Ingredients
import SymbolicCalculus.Proofs.Formula.Ingredients
import SymbolicCalculus.Proofs.Calculus.WellFormed
import SymbolicCalculus.Proofs.Compile.Agreement
import SymbolicCalculus.Proofs.Simplify.Steps
import SymbolicCalculus.Proofs.Calculus.Resolution
import SymbolicCalculus.Proofs.Session.Frame
import SymbolicCalculus.Proofs.Simplify.Restoration
import SymbolicCalculus.Proofs.Session.Fixpoint
import SymbolicCalculus.Proofs.Formula.Places
import SymbolicCalculus.Proofs.Formula.EarliestFault
import SymbolicCalculus.Proofs.Formula.Blanks
import SymbolicCalculus.Proofs.Calculus.Culprit
import SymbolicCalculus.Proofs.Calculus.Resolved
import SymbolicCalculus.Proofs.Expr.Traversal
import SymbolicCalculus.Proofs.Simplify.Size
import SymbolicCalculus.Proofs.Simplify.NormalForm
import SymbolicCalculus.Proofs.Double.Signs
import SymbolicCalculus.Proofs.Simplify.Orderly
import SymbolicCalculus.Proofs.Simplify.PassLimit
import SymbolicCalculus.Proofs.Exact.Reading
import SymbolicCalculus.Proofs.Compile.Units
import SymbolicCalculus.Proofs.Calculus.CallsLeft
import SymbolicCalculus.Proofs.Calculus.Polynomial
import SymbolicCalculus.Proofs.Calculus.Symbols
import SymbolicCalculus.Proofs.Calculus.Preparation
import SymbolicCalculus.Proofs.Compile.Refusal
import SymbolicCalculus.Proofs.Session.Formulas
import SymbolicCalculus.Proofs.Formula.Parentheses
import SymbolicCalculus.Proofs.Token.MaximalMunch
import SymbolicCalculus.Proofs.Formula.Reprinting
import SymbolicCalculus.Proofs.Formula.WellTyped
import SymbolicCalculus.Proofs.Formula.FaultRegions
import SymbolicCalculus.Proofs.Session.Regions
import SymbolicCalculus.Proofs.Expr.Substitution
import SymbolicCalculus.Proofs.Session.Names
import SymbolicCalculus.Proofs.Calculus.Vanishing
import SymbolicCalculus.Proofs.Formula.Consumption
