/-
Module: SymbolicCalculus.Proofs.Formula.Ingredients
Layer: Proofs
Purpose: What expressions read from a text are made of. The numbers in them are those that literals and
  constants stand for, and the names are names in the text that belong to no constant. A call is kept only
  if it is an operation of the calculus by a variable.
Main exports: Formula.MadeOf, Formula.madeOf_of_tree?, Formula.madeOf_toExpr, Expr.madeOf_parse,
  Expr.exists_token_of_symbol
-/
import SymbolicCalculus.Formula.Meaning
import SymbolicCalculus.Proofs.Expr.Ingredients
import SymbolicCalculus.Proofs.Formula.Parsing
import SymbolicCalculus.Proofs.Token.Lexing

namespace SymbolicCalculus

namespace Formula

variable {α : Type} {Number : α → Prop} {Name : String → Prop}

/-- The formula is made of numbers and names that each have a property, those of calls apart. -/
inductive MadeOf (Number : α → Prop) (Name : String → Prop) : Formula α → Prop where
  | number {value : α} {span : Span} (fits : Number value) : MadeOf Number Name (.number value span)
  | symbol {name : String} {span : Span} (fits : Name name) : MadeOf Number Name (.symbol name span)
  | paren {inner : Formula α} {span : Span} :
      MadeOf Number Name inner → MadeOf Number Name (.paren inner span)
  | call {name : String} {nameSpan parenSpan : Span} {arguments : List (Formula α)}
      (each : ∀ argument ∈ arguments, MadeOf Number Name argument) :
      MadeOf Number Name (.call name nameSpan arguments parenSpan)
  | neg {operand : Formula α} {span : Span} :
      MadeOf Number Name operand → MadeOf Number Name (.neg operand span)
  | binary {op : BinaryOp} {span : Span} {left right : Formula α} :
      MadeOf Number Name left → MadeOf Number Name right →
        MadeOf Number Name (.binary op span left right)

/-- Parentheses make no difference. -/
theorem MadeOf.innermost {f : Formula α} (made : f.MadeOf Number Name) :
    f.innermost.MadeOf Number Name := by
  induction made with
  | paren _ ih => exact ih
  | number fits => exact .number fits
  | symbol fits => exact .symbol fits
  | call each => exact .call each
  | neg inner => exact .neg inner
  | binary left right => exact .binary left right

/-- A variable is a name that belongs to no constant. -/
theorem MadeOf.variableName? {f : Formula α} {var : String} (made : f.MadeOf Number Name)
    (known : f.variableName? = some var) : Name var ∧ isConstantName var = false := by
  have inside := made.innermost
  unfold Formula.variableName? at known
  split at known
  · next name span found =>
    rw [found] at inside
    split at known
    · cases known
    · next free =>
      cases known
      cases inside with
      | symbol fits => exact ⟨fits, Bool.eq_false_iff.2 free⟩
  · cases known

/-! ### Derivations -/

section Derivations

open Grammar

/-- The names among the tokens have the property. -/
def NamesFit (Name : String → Prop) (tokens : List Token) : Prop :=
  ∀ token ∈ tokens, token.kind = .name → Name token.lexeme

theorem NamesFit.mono {tokens part : List Token} (names : NamesFit Name tokens) (sub : part ⊆ tokens) :
    NamesFit Name part := fun token mem => names token (sub mem)

theorem NamesFit.parts {first second : List Token} {sign : Token}
    (names : NamesFit Name (first ++ sign :: second)) : NamesFit Name first ∧ NamesFit Name second :=
  ⟨names.mono (List.subset_append_left _ _),
    names.mono fun _ mem => List.mem_append_right _ (List.mem_cons_of_mem _ mem)⟩

theorem NamesFit.inside {tokens : List Token} {opening closing : Token}
    (names : NamesFit Name (opening :: (tokens ++ [closing]))) : NamesFit Name tokens :=
  names.mono fun _ mem => List.mem_cons_of_mem _ (List.mem_append_left _ mem)

/-- An operator between two formulas. -/
theorem madeOf_infix {left right : Option (Formula α)} {op : BinaryOp} {span : Span} {f : Formula α}
    (read : (left.bind fun l => right.map fun r => binary op span l r) = some f)
    (first : ∀ l, left = some l → l.MadeOf Number Name)
    (second : ∀ r, right = some r → r.MadeOf Number Name) : f.MadeOf Number Name := by
  obtain ⟨l, readLeft, read⟩ := Option.bind_eq_some_iff.1 read
  obtain ⟨r, readRight, rfl⟩ := Option.map_eq_some_iff.1 read
  exact .binary (first l readLeft) (second r readRight)

variable [Numeral α]

/-- The literals stand for numbers that have the property. -/
def LiteralsFit (Number : α → Prop) : Prop :=
  ∀ (literal : String) (value : α), Numeral.ofLiteral? literal = some value → Number value

mutual

/-- A formula is made of the literals and names among its tokens. -/
theorem madeOf_of_tree? (reads : LiteralsFit Number) :
    ∀ {c : Category} (d : Derivation c) {f : Formula α}, d.tree? = some f →
      NamesFit Name d.yield → f.MadeOf Number Name
  | _, .sum left _ right, _, read, names =>
      madeOf_infix read (fun _ readLeft => madeOf_of_tree? reads left readLeft names.parts.1)
        (fun _ readRight => madeOf_of_tree? reads right readRight names.parts.2)
  | _, .ofTerm term, _, read, names => madeOf_of_tree? reads term read names
  | _, .product left _ right, _, read, names =>
      madeOf_infix read (fun _ readLeft => madeOf_of_tree? reads left readLeft names.parts.1)
        (fun _ readRight => madeOf_of_tree? reads right readRight names.parts.2)
  | _, .ofUnary unary, _, read, names => madeOf_of_tree? reads unary read names
  | _, .minus _ operand, _, read, names => by
      obtain ⟨g, readOperand, rfl⟩ := Option.map_eq_some_iff.1 read
      exact .neg (madeOf_of_tree? reads operand readOperand (names.mono (List.subset_cons_self _ _)))
  | _, .ofPower power, _, read, names => madeOf_of_tree? reads power read names
  | _, .raised base _ exponent, _, read, names =>
      madeOf_infix read (fun _ readBase => madeOf_of_tree? reads base readBase names.parts.1)
        (fun _ readExponent => madeOf_of_tree? reads exponent readExponent names.parts.2)
  | _, .ofPrimary primary, _, read, names => madeOf_of_tree? reads primary read names
  | _, .number _ _, _, read, _ => by
      obtain ⟨value, known, rfl⟩ := Option.map_eq_some_iff.1 read
      exact .number (reads _ _ known)
  | _, .name word, _, read, names => by
      cases read
      exact .symbol (names _ (List.mem_singleton_self _) word.is_kind)
  | _, .group _ inner _, _, read, names => by
      obtain ⟨g, readInner, rfl⟩ := Option.map_eq_some_iff.1 read
      exact .paren (madeOf_of_tree? reads inner readInner names.inside)
  | _, .emptyCall _ _ _, _, read, _ => by
      cases read
      exact .call fun _ mem => nomatch mem
  | _, .call _ _ given _, _, read, names => by
      obtain ⟨fs, readGiven, rfl⟩ := Option.map_eq_some_iff.1 read
      exact .call (madeOf_of_trees? reads given readGiven (names.mono (List.subset_cons_self _ _)).inside)

theorem madeOf_of_trees? (reads : LiteralsFit Number) :
    ∀ (given : Arguments) {fs : List (Formula α)}, given.trees? = some fs →
      NamesFit Name given.yield → ∀ f ∈ fs, f.MadeOf Number Name
  | .last argument, _, read, names => by
      obtain ⟨g, readArgument, rfl⟩ := Option.map_eq_some_iff.1 read
      intro f mem
      rw [List.mem_singleton.1 mem]
      exact madeOf_of_tree? reads argument readArgument names
  | .more argument _ others, _, read, names => by
      obtain ⟨g, readArgument, read⟩ := Option.bind_eq_some_iff.1 read
      obtain ⟨gs, readOthers, rfl⟩ := Option.map_eq_some_iff.1 read
      intro f mem
      rcases List.mem_cons.1 mem with rfl | later
      · exact madeOf_of_tree? reads argument readArgument names.parts.1
      · exact madeOf_of_trees? reads others readOthers names.parts.2 f later

end

/-- A formula read from a text is made of the literals and names among its tokens. -/
theorem madeOf_parse_of_names (reads : LiteralsFit Number) {text : String} {f : Formula α}
    (names : NamesFit Name (significant (tokenize text))) (read : parse text = .ok f) :
    f.MadeOf Number Name := by
  obtain ⟨d, yields, tree⟩ := (parse_eq_ok_iff_derives text f).1 read
  exact madeOf_of_tree? reads d tree (yields ▸ names)

omit [Numeral α] in
theorem namesFit_isIdentifier (text : String) :
    NamesFit Token.IsIdentifier (significant (tokenize text)) :=
  fun _ mem is_name => isIdentifier_of_mem_tokensFrom (List.mem_filter.1 mem).1 is_name

end Derivations

/-! ### Meanings -/

section Meanings

variable [Scalar α] (pi : Number Scalar.pi) (e : Number Scalar.e)

/-- What is no constant has a name that belongs to none. -/
theorem isConstantName_of_namedConstant? {name : String}
    (variable_ : (namedConstant? name : Option α) = none) : isConstantName name = false := by
  unfold namedConstant? at variable_
  split at variable_
  · cases variable_
  · cases variable_
  · cases variable_
  · cases variable_
  · next noPi noPI noE noCapitalE =>
    simp only [isConstantName, List.contains_eq_mem, List.mem_cons, List.not_mem_nil, or_false,
      decide_eq_false_iff_not, not_or]
    exact ⟨noPi, noPI, noE, noCapitalE⟩

include pi e

theorem number_of_namedConstant? {name : String} {value : α}
    (known : namedConstant? name = some value) : Number value := by
  unfold namedConstant? at known
  split at known
  · cases known; exact pi
  · cases known; exact pi
  · cases known; exact e
  · cases known; exact e
  · cases known

/-- The expression that a formula stands for is made of the same numbers, of constants, and of those of
    the names that belong to no constant. -/
theorem madeOf_toExpr {f : Formula α} (made : f.MadeOf Number Name) :
    ∀ {expr : Expr α}, f.toExpr = .ok expr →
      expr.MadeOf Number fun name => Name name ∧ isConstantName name = false := by
  induction made with
  | number fits =>
    intro expr meaning
    cases meaning
    exact .number fits
  | @symbol name span fits =>
    intro expr meaning
    rw [toExpr] at meaning
    cases meaning
    split
    · next value known => exact .number (number_of_namedConstant? pi e known)
    · next variable_ => exact .symbol ⟨fits, isConstantName_of_namedConstant? variable_⟩
  | paren _ ih =>
    intro expr meaning
    exact ih meaning
  | neg _ ih =>
    intro expr meaning
    rw [toExpr] at meaning
    split at meaning
    · next inner =>
      cases meaning
      exact .neg (ih inner)
    · cases meaning
  | binary _ _ first second =>
    intro expr meaning
    rw [toExpr] at meaning
    split at meaning
    · cases meaning
    · next left =>
      split at meaning
      · cases meaning
      · next right =>
        cases meaning
        exact .binary (first left) (second right)
  | @call name nameSpan parenSpan arguments each ih =>
    intro expr meaning
    unfold toExpr at meaning
    split at meaning
    · next operation =>
      split at meaning
      · next operand by_ =>
        split at meaning
        · cases meaning
        · next var known =>
          split at meaning
          · next inner =>
            cases meaning
            refine .call operation (ih operand (List.mem_cons_self ..) inner) ?_
            exact (each by_ (List.mem_cons_of_mem _ (List.mem_singleton_self _))).variableName? known
          · cases meaning
      · cases meaning
    · split at meaning
      · cases meaning
      · split at meaning
        · next operand =>
          split at meaning
          · next inner =>
            cases meaning
            exact .apply (ih operand (List.mem_singleton_self _) inner)
          · cases meaning
        · cases meaning

end Meanings

end Formula

namespace Expr

section

variable {α : Type} {Number : α → Prop} {Name : String → Prop} [Numeral α] (pi : Number Scalar.pi)
  (e : Number Scalar.e) (reads : Formula.LiteralsFit Number) {text : String} {expr : Expr α}

include pi e reads

/-- An expression read from a text is made of literals, of constants, and of those of the names in the text
    that belong to no constant. -/
theorem madeOf_parse_of_names (names : Formula.NamesFit Name (significant (tokenize text)))
    (read : parse text = .ok expr) :
    expr.MadeOf Number fun name => Name name ∧ isConstantName name = false := by
  unfold parse at read
  split at read
  · cases read
  · next formula parsed =>
    split at read
    · cases read
    · next meaning =>
      cases read
      exact Formula.madeOf_toExpr pi e (Formula.madeOf_parse_of_names reads names parsed) meaning

/-- An expression read from a text is made of literals, of constants, and of identifiers that belong to no
    constant. -/
theorem madeOf_parse (read : parse text = .ok expr) :
    expr.MadeOf Number fun name => Token.IsIdentifier name ∧ isConstantName name = false :=
  madeOf_parse_of_names pi e reads (Formula.namesFit_isIdentifier text) read

end

/-- The symbols of an expression read from a text are names in the text. -/
theorem exists_token_of_symbol {α : Type} [Numeral α] {text name : String} {expr : Expr α}
    (read : parse text = .ok expr) (mem : name ∈ expr.symbols) :
    ∃ token ∈ tokenize text, token.kind = .name ∧ token.lexeme = name := by
  have written : Formula.NamesFit
      (fun name => ∃ token ∈ tokenize text, token.kind = .name ∧ token.lexeme = name)
      (significant (tokenize text)) :=
    fun token inside is_name => ⟨token, (List.mem_filter.1 inside).1, is_name, rfl⟩
  have made : expr.MadeOf (fun _ => True) _ :=
    madeOf_parse_of_names trivial trivial (fun _ _ _ => trivial) written read
  exact (made.name_of_mem name mem).1

end Expr

end SymbolicCalculus
