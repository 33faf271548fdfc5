/-
Module: SymbolicCalculus.Proofs.Expr.RoundTrip
Layer: Proofs
Purpose: A printed expression reads back as itself, but for numbers with a minus sign: they are read as
  negated numbers. The printer leaves out parentheses exactly where the operand's own category lets the
  operator around it keep it whole, so each printed piece is read as a part of its category wherever a
  text goes on apart from it.
Main exports: Expr.Printable, Expr.norm, Expr.numbers, Grammar.Reads, Expr.Printable.reads,
  Expr.Printable.evaluate_norm, Expr.Printable.parse_text
-/
import SymbolicCalculus.Expr.Evaluation
import SymbolicCalculus.Expr.Printer
import SymbolicCalculus.Formula.Meaning
import SymbolicCalculus.Proofs.Formula.Pieces

namespace SymbolicCalculus

namespace Expr

/-! ### Expressions that formulas stand for -/

/-- The expression can be written as a formula: its numbers are finite, its symbols are names but not
    those of constants, and its calls are operations of the calculus by a variable. -/
inductive Printable {α : Type} [Scalar α] : Expr α → Prop where
  | number {value : α} (finite : Scalar.isFinite value = true) : Printable (.number value)
  | symbol {name : String} (identifier : Token.IsIdentifier name)
      (free : isConstantName name = false) : Printable (.symbol name)
  | neg {operand : Expr α} : Printable operand → Printable (.neg operand)
  | apply {function : Elementary} {operand : Expr α} :
      Printable operand → Printable (.apply function operand)
  | binary {op : BinaryOp} {left right : Expr α} :
      Printable left → Printable right → Printable (.binary op left right)
  | call {name var : String} {operand : Expr α} (operation : isOperationName name = true) :
      Printable operand → Printable (.symbol var) → Printable (.call name [operand, .symbol var])

section Numbers

variable {α : Type}

mutual

/-- The numbers in an expression, from left to right. -/
def numbers : Expr α → List α
  | number value => [value]
  | symbol _ => []
  | neg operand => operand.numbers
  | apply _ operand => operand.numbers
  | binary _ left right => left.numbers ++ right.numbers
  | call _ arguments => numbersOfAll arguments

/-- The numbers in a row of expressions. -/
def numbersOfAll : List (Expr α) → List α
  | [] => []
  | first :: others => first.numbers ++ numbersOfAll others

end

variable [Scalar α]

/-- The numbers of an expression that can be printed are finite. -/
theorem Printable.isFinite {e : Expr α} (printable : e.Printable) :
    ∀ value ∈ e.numbers, Scalar.isFinite value = true := by
  induction printable with
  | number finite =>
    intro value mem
    rw [List.mem_singleton.1 mem]
    exact finite
  | symbol => rintro _ ⟨⟩
  | neg _ ih => exact ih
  | apply _ ih => exact ih
  | binary _ _ first second =>
    intro value mem
    rcases List.mem_append.1 mem with front | back
    · exact first value front
    · exact second value back
  | call _ _ _ first second =>
    intro value mem
    rcases List.mem_append.1 mem with front | back
    · exact first value front
    · exact second value (by simpa [numbersOfAll] using back)

mutual

/-- The expression with every number that has a minus sign taken apart into the sign and the rest. -/
def norm : Expr α → Expr α
  | number value => if Scalar.hasMinus value then neg (number (-value)) else number value
  | symbol name => symbol name
  | neg operand => neg operand.norm
  | apply function operand => apply function operand.norm
  | binary op left right => binary op left.norm right.norm
  | call name arguments => call name (normAll arguments)

/-- A row of expressions with their numbers taken apart. -/
def normAll : List (Expr α) → List (Expr α)
  | [] => []
  | first :: others => first.norm :: normAll others

end

/-- The category of the expression's text. -/
def category (e : Expr α) : Grammar.Category :=
  match e.outermost? with
  | none => .primary
  | some level => .madeBy level

/-- The category of the text of an operand, with parentheses if they are needed. -/
def operandCategory (needed : Bool) (operand : Expr α) : Grammar.Category :=
  if needed then .primary else operand.category

end Numbers

end Expr

namespace Grammar

open SymbolicCalculus.Expr

/-! ### Where parentheses are left out -/

section Parentheses

variable {α : Type} [Scalar α] (operand : Expr α) (op : BinaryOp)

/-- The operator keeps its left operand whole. -/
theorem tightest_left :
    op.precedence ≤ (operandCategory
      (operand.needsParens op.precedence op.associativity .left) operand).tightest := by
  unfold operandCategory needsParens category
  generalize operand.isMinusNumber = minus
  generalize operand.outermost? = outermost
  revert minus outermost
  cases op <;> rintro (- | -) (- | level) <;> first | decide | (cases level <;> decide)

/-- The operator reaches all of its right operand. -/
theorem looseness_right :
    (operandCategory (operand.needsParens op.precedence op.associativity .right)
      operand).looseness ≤ (Category.reached op.rightLevel).looseness := by
  unfold operandCategory needsParens category
  generalize operand.isMinusNumber = minus
  generalize operand.outermost? = outermost
  revert minus outermost
  cases op <;> rintro (- | -) (- | level) <;> first | decide | (cases level <;> decide)

/-- A minus sign reaches all of its operand. -/
theorem looseness_negated :
    (operandCategory (operand.needsParens .neg .left .right) operand).looseness ≤
      Category.unary.looseness := by
  unfold operandCategory needsParens category
  generalize operand.isMinusNumber = minus
  generalize operand.outermost? = outermost
  revert minus outermost
  rintro (- | -) (- | level) <;> first | decide | (cases level <;> decide)

end Parentheses

/-! ### Pieces of a text -/

section Pieces

variable {α : Type} [Numeral α] {c c' : Category} {piece left right : List Char} {e l r : Expr α}

/-- The piece of a text is read as a part of the category that stands for the expression, wherever the
    text goes on apart from it. -/
def Reads (c : Category) (piece : List Char) (e : Expr α) : Prop :=
  ∀ (start : Nat) (rest : List Char), Apart rest →
    ∃ (tokens : List Token) (f : Formula α),
      significant (tokensFrom start (piece ++ rest)) =
        tokens ++ significant (tokensFrom (start + utf8Length piece) rest) ∧
      Derives c tokens f ∧ f.toExpr = .ok e

theorem Reads.widen (bound : c.looseness ≤ c'.looseness) (reads : Reads c piece e) :
    Reads c' piece e :=
  ReadsAs.widen bound reads

theorem Reads.numeral {value : α} (numeral : Token.IsNumeral (Numeral.text value).toList)
    (read : Numeral.ofLiteral? (Numeral.text value) = some value) :
    Reads .primary (Numeral.text value).toList (.number value) :=
  ReadsAs.numeral numeral read fun _ => rfl

theorem namedConstant?_of_free {β : Type} [Scalar β] {name : String}
    (free : isConstantName name = false) : (namedConstant? name : Option β) = none := by
  unfold namedConstant?
  split <;> first | rfl | exact absurd free (by decide)

theorem Reads.symbol {name : String} (identifier : Token.IsIdentifier name)
    (free : isConstantName name = false) : Reads .primary name.toList (.symbol name : Expr α) :=
  ReadsAs.name identifier fun span => by rw [Formula.toExpr, namedConstant?_of_free free]

theorem Reads.constant {name : String} {value : α} (identifier : Token.IsIdentifier name)
    (known : namedConstant? name = some value) : Reads .primary name.toList (.number value) :=
  ReadsAs.name identifier fun span => by rw [Formula.toExpr, known]

theorem Reads.paren (reads : Reads c piece e) : Reads .primary ('(' :: (piece ++ [')'])) e :=
  ReadsAs.paren reads fun _ _ meaning => meaning

theorem Reads.minus (reads : Reads .unary piece e) : Reads .unary ('-' :: piece) (.neg e) :=
  ReadsAs.minus reads fun f span meaning => by rw [Formula.toExpr, meaning]

theorem Reads.binary {op : BinaryOp} (whole : op.precedence ≤ c.tightest)
    (reached : c'.looseness ≤ (Category.reached op.rightLevel).looseness)
    (first : Reads c left l) (second : Reads c' right r) :
    Reads (.madeBy op.precedence) (left ++ op.spaced.toList ++ right) (.binary op l r) :=
  ReadsAs.binary whole reached first second fun f f' span meaning meaning' => by
    rw [Formula.toExpr, meaning]
    simp only [meaning']

theorem isIdentifier_name (function : Elementary) : Token.IsIdentifier function.name := by
  rw [Token.isIdentifier_iff]
  cases function <;> exact ⟨_, _, rfl, by decide, List.all_eq_true.1 (by decide)⟩

theorem isOperationName_name (function : Elementary) : isOperationName function.name = false := by
  cases function <;> decide

theorem ofName?_name (function : Elementary) :
    Elementary.ofName? function.name = some function := by
  cases function <;> decide

/-- A function applied to an operand is written as a call with one argument. -/
theorem Reads.apply (function : Elementary) (reads : Reads c piece e) :
    Reads .primary (function.name.toList ++ '(' :: (piece ++ [')'])) (.apply function e) := by
  have inside : RowReadsAs piece fun row => ∀ place span,
      (.call function.name place row span : Formula α).toExpr = .ok (.apply function e) :=
    .last reads fun f meaning place span => by
      simp only [Formula.toExpr, isOperationName_name, ofName?_name, meaning, Bool.false_eq_true,
        if_false]
  exact ReadsAs.call (isIdentifier_name function) inside fun _ place span meaning =>
    meaning place span

theorem isIdentifier_of_isOperationName {name : String} (operation : isOperationName name = true) :
    Token.IsIdentifier name := by
  rw [Token.isIdentifier_iff]
  simp only [isOperationName, Bool.or_eq_true, beq_iff_eq] at operation
  rcases operation with rfl | rfl <;> exact ⟨_, _, rfl, by decide, List.all_eq_true.1 (by decide)⟩

/-- An operation of the calculus is written as a call with the variable as the second argument. -/
theorem Reads.operation {name var : String} (operation : isOperationName name = true)
    (identifier : Token.IsIdentifier var) (free : isConstantName var = false)
    (reads : Reads c piece e) :
    Reads .primary (name.toList ++ '(' :: (piece ++ ',' :: ' ' :: var.toList ++ [')']))
      (.call name [e, .symbol var]) := by
  have named : ReadsAs .primary var.toList fun by_ : Formula α => by_.variableName? = some var :=
    .name identifier fun span => by simp [Formula.variableName?, Formula.innermost, free]
  have last : RowReadsAs var.toList fun row : List (Formula α) =>
      ∃ by_, row = [by_] ∧ by_.variableName? = some var :=
    .last named fun by_ variable_ => ⟨by_, rfl, variable_⟩
  have inside : RowReadsAs (piece ++ ',' :: ' ' :: var.toList) fun row => ∀ place span,
      (.call name place row span : Formula α).toExpr = .ok (.call name [e, .symbol var]) :=
    .more reads last fun f row meaning others place span => by
      obtain ⟨by_, rfl, variable_⟩ := others
      simp only [Formula.toExpr, operation, variable_, meaning, if_true]
  exact ReadsAs.call (isIdentifier_of_isOperationName operation) inside fun _ place span meaning =>
    meaning place span

/-- A whole text that is read as an expression is parsed as it. -/
theorem Reads.parse {text : String} (reads : Reads c text.toList e) :
    Expr.parse text = .ok e := by
  obtain ⟨f, parsed, meaning⟩ := ReadsAs.exists_parse reads
  simp only [Expr.parse, parsed, meaning]

end Pieces

end Grammar

namespace Expr

open Grammar

variable {α : Type} [Numeral α]

/-! ### Printed expressions -/

/-- The text of the number is digits with an optional fraction, and it reads back as the number. -/
def ReadsBack (value : α) : Prop :=
  Token.IsNumeral (Numeral.text value).toList ∧
    Numeral.ofLiteral? (Numeral.text value) = some value

/-- The number reads back, or it is a minus sign before a number that reads back. -/
def WrittenWithSign (value : α) : Prop :=
  if Scalar.hasMinus value then Numeral.text value = "-" ++ Numeral.text (-value) ∧ ReadsBack (-value)
  else ReadsBack value

/-- Parentheses around a piece that needs them make it primary. -/
theorem reads_parenthesize {operand e : Expr α} {text : String} (needed : Bool)
    (reads : Reads operand.category text.toList e) :
    Reads (operandCategory needed operand) (parenthesize needed text).toList e := by
  cases needed with
  | false => exact reads
  | true =>
    have inside := reads.paren
    simpa [parenthesize, operandCategory] using inside

theorem Printable.reads {e : Expr α} (printable : e.Printable)
    (written : ∀ value ∈ e.numbers, WrittenWithSign value) :
    Reads e.category e.text.toList e.norm := by
  induction printable with
  | @number value finite =>
    have written := written value (List.mem_singleton.2 rfl)
    unfold WrittenWithSign at written
    rw [text, norm, category, outermost?]
    by_cases minus : Scalar.hasMinus value = true
    · simp only [minus, if_true] at written ⊢
      obtain ⟨sign, numeral, read⟩ := written
      rw [sign]
      have tight : Category.primary.looseness ≤ Category.unary.looseness := by decide
      have negated := ((Reads.numeral numeral read).widen tight).minus
      simpa [Category.madeBy] using negated
    · simp only [minus] at written ⊢
      exact Reads.numeral written.1 written.2
  | symbol identifier free => exact Reads.symbol identifier free
  | @neg operand printable ih =>
    have inner := reads_parenthesize (operand.needsParens .neg .left .right) (ih written)
    have negated := (inner.widen (looseness_negated operand)).minus
    simpa [text, norm, category, outermost?, Category.madeBy] using negated
  | @apply function operand printable ih =>
    have applied := (ih written).apply function
    simpa [text, norm, category, outermost?] using applied
  | @binary op left right printableLeft printableRight first second =>
    have l := reads_parenthesize (left.needsParens op.precedence op.associativity .left)
      (first fun value mem => written value (List.mem_append_left _ mem))
    have r := reads_parenthesize (right.needsParens op.precedence op.associativity .right)
      (second fun value mem => written value (List.mem_append_right _ mem))
    have joined := Reads.binary (tightest_left left op) (looseness_right right op) l r
    simpa [text, norm, category, outermost?] using joined
  | @call name var operand operation printable variable_ ih ih' =>
    cases variable_ with
    | symbol identifier free =>
      have inner := ih fun value mem => written value (List.mem_append_left _ mem)
      have called := inner.operation operation identifier free
      simpa [text, argumentsText, norm, normAll, category, outermost?] using called

/-- A printed expression reads back as itself, but for the numbers with a minus sign. -/
theorem Printable.parse_text {e : Expr α} (printable : e.Printable)
    (written : ∀ value ∈ e.numbers, WrittenWithSign value) : Expr.parse e.text = .ok e.norm :=
  (printable.reads written).parse

/-- Taking the numbers apart changes no value and no error. -/
theorem Printable.evaluate_norm {e : Expr α} (printable : e.Printable)
    (undone : ∀ value ∈ e.numbers, Scalar.hasMinus value = true → - -value = value)
    (context : Context α) : e.norm.evaluate context = e.evaluate context := by
  induction printable with
  | @number value finite =>
    rw [norm]
    split
    · next minus =>
      simp only [evaluate, undone value (List.mem_singleton.2 rfl) minus]
    · rfl
  | symbol => rfl
  | neg printable ih => rw [norm, evaluate, evaluate, ih undone]
  | apply printable ih => rw [norm, evaluate, evaluate, ih undone]
  | binary printableLeft printableRight first second =>
    rw [norm, evaluate, evaluate,
      first fun value mem => undone value (List.mem_append_left _ mem),
      second fun value mem => undone value (List.mem_append_right _ mem)]
  | call => rfl

end Expr

end SymbolicCalculus
