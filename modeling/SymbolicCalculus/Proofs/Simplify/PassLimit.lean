/-
Module: SymbolicCalculus.Proofs.Simplify.PassLimit
Layer: Proofs
Purpose: How many passes simplification takes. A pass applies one rule at a node, so a factor that has to
  go through a chain of quotients takes one of them in each pass. Such a chain is only limited by the length
  of the text, so there is a text for every limit on the passes that reaches it. Its number of nodes is in
  proportion to the limit, and it has to be: no text with fewer nodes than passes are allowed does.
Main exports: Double.foldsSigns, Expr.quotients, Expr.scaledQuotients, Expr.settle_scaledQuotients,
  Expr.parse_scaledText, Expr.pass_limit_in_nodes, Expr.exists_text_reaching, Expr.pass_limit_is_reached
-/
import SymbolicCalculus.Proofs.Calculus.WellFormed
import SymbolicCalculus.Proofs.Double.Signs
import SymbolicCalculus.Proofs.Double.Writing
import SymbolicCalculus.Proofs.Simplify.Orderly

namespace SymbolicCalculus

/-- Numbers that texts are read as keep finite when their signs are turned around. -/
theorem Double.foldsSigns : FoldsSigns Double.Plain where
  neg _ plain := isFinite_neg plain.1
  zero_sub _ _ zero plain := isFinite_zero_sub plain.1 zero
  minusOne_mul _ _ minusOne plain := isFinite_minusOne_mul plain.1 minusOne

namespace Expr

/-! ### A chain of quotients -/

/-- The number one half. -/
def half : Double := Double.ofFloat 0.5

/-- A variable divided by two and by one half, over and over. -/
def quotients : Nat → Expr Double
  | 0 => symbol "x"
  | pairs + 1 => quotients pairs / ofNat 2 / number half

/-- Twice such a quotient. -/
def scaledQuotients (pairs : Nat) : Expr Double := ofNat 2 * quotients pairs

theorem nodeCount_scaledQuotients (pairs : Nat) :
    (scaledQuotients pairs).nodeCount = 4 * pairs + 3 := by
  have chain : (quotients pairs).nodeCount = 4 * pairs + 1 := by
    induction pairs with
    | zero => rfl
    | succ pairs ih =>
      simp only [quotients, div_def, ofNat, nodeCount, ih]
      omega
  simp only [scaledQuotients, mul_def, ofNat, nodeCount, chain]
  omega

/-- No rule fits where a chain is divided by two. -/
theorem pass_quotients_half {pairs : Nat} (still : (quotients pairs).pass = (quotients pairs, [])) :
    (quotients pairs / ofNat 2).pass = (quotients pairs / ofNat 2, []) := by
  have two : (ofNat 2 : Expr Double).pass = (ofNat 2, []) := rfl
  have halved : (quotients pairs / ofNat 2).firstRule? = none := by cases pairs <;> rfl
  rw [div_def, pass, still, two, ← div_def, finish, halved]
  rfl

/-- No rule fits anywhere in a chain, since it starts with a variable. -/
theorem pass_quotients : ∀ pairs, (quotients pairs).pass = (quotients pairs, [])
  | 0 => rfl
  | pairs + 1 => by
      have half_ : (number half).pass = (number half, []) := rfl
      have doubled : (quotients pairs / ofNat 2 / number half).firstRule? = none := by
        cases pairs <;> rfl
      rw [quotients, div_def, pass, pass_quotients_half (pass_quotients pairs), half_, ← div_def, finish,
        doubled]
      rfl

/-- The factor takes the half of the outermost pair in one pass, and the two in the next. -/
theorem pass_scaledQuotients (pairs : Nat) :
    (scaledQuotients (pairs + 1)).pass =
        (ofNat 4 * (quotients pairs / ofNat 2), [.multiplyFraction]) ∧
      (ofNat 4 * (quotients pairs / ofNat 2)).pass = (scaledQuotients pairs, [.multiplyFraction]) := by
  have two : (ofNat 2 : Expr Double).pass = (ofNat 2, []) := rfl
  have four : (ofNat 4 : Expr Double).pass = (ofNat 4, []) := rfl
  have twice : (scaledQuotients (pairs + 1)).firstRule? =
      some (.multiplyFraction, ofNat 4 * (quotients pairs / ofNat 2)) := rfl
  have once : (ofNat 4 * (quotients pairs / ofNat 2)).firstRule? =
      some (.multiplyFraction, scaledQuotients pairs) := rfl
  constructor
  · rw [scaledQuotients, mul_def, pass, pass_quotients, two, ← mul_def, ← scaledQuotients, finish, twice]
    rfl
  · rw [mul_def, pass, four, pass_quotients_half (pass_quotients pairs), ← mul_def, finish, once]
    rfl

/-- With two passes for each pair the chain is taken apart as far as the passes go, and no further. -/
theorem settle_scaledQuotients (left : Nat) (steps : List Rule) : ∀ pairs,
    (scaledQuotients (pairs + left)).settle (2 * pairs) steps = .error (scaledQuotients left)
  | 0 => by rw [Nat.zero_add, Nat.mul_zero, settle]
  | pairs + 1 => by
      obtain ⟨first, second⟩ := pass_scaledQuotients (pairs + left)
      rw [Nat.add_right_comm, Nat.mul_succ, settle, first]
      simp only [List.isEmpty_cons, Bool.false_eq_true, if_false]
      rw [settle, second]
      simp only [List.isEmpty_cons, Bool.false_eq_true, if_false]
      exact settle_scaledQuotients left _ pairs

/-- No number of passes that is less than two for each pair is enough. -/
theorem simplifyWithin_scaledQuotients {limit pairs : Nat} (many : limit ≤ 2 * pairs) :
    ∃ stopped, (scaledQuotients pairs).simplifyWithin limit = .error stopped := by
  cases settled : (scaledQuotients pairs).settle limit [] with
  | error last =>
    refine ⟨⟨scaledQuotients pairs, limit, last⟩, ?_⟩
    rw [simplifyWithin, settled]
  | ok simplified =>
    have longer := settle_of_le settled many
    have stops := settle_scaledQuotients 0 [] pairs
    rw [Nat.add_zero, longer] at stops
    cases stops

/-! ### The chain as a text -/

/-- A chain of quotients as it is written. -/
def quotientsText (pairs : Nat) : String := "x" ++ String.join (List.replicate pairs " / 2 / 0.5")

/-- Twice a chain of quotients as it is written, with parentheses around the chain. -/
def scaledText (pairs : Nat) : String := "2 * (" ++ quotientsText pairs ++ ")"

theorem text_two : Numeral.text (Scalar.ofNat 2 : Double) = "2" := by decide +kernel

theorem text_half : Numeral.text half = "0.5" := by decide +kernel

/-- A quotient by a number without a minus sign is written without parentheses around the number. -/
theorem text_div_number {e : Expr Double} {value : Double} (plus : Scalar.hasMinus value = false)
    (bare : e.needsParens BinaryOp.div.precedence .left .left = false) :
    (e / number value).text = e.text ++ " / " ++ Numeral.text value := by
  have number_ : (number value).needsParens BinaryOp.div.precedence .left .right = false := by
    simp [needsParens, isMinusNumber, outermost?, plus]
  have group : BinaryOp.div.associativity = .left := rfl
  rw [div_def, text, text, group, bare, number_]
  rfl

theorem text_quotients : ∀ pairs, (quotients pairs).text = quotientsText pairs
  | 0 => rfl
  | pairs + 1 => by
      have chain : (quotients pairs).needsParens BinaryOp.div.precedence .left .left = false := by
        cases pairs <;> rfl
      have longer : quotientsText (pairs + 1) = quotientsText pairs ++ " / 2 / 0.5" := by
        rw [quotientsText, quotientsText, List.replicate_succ', String.join_append, String.append_assoc]
        rfl
      rw [quotients, text_div_number (by decide +kernel) rfl, ofNat,
        text_div_number (by decide +kernel) chain, text_quotients pairs, text_two, text_half, longer]
      simp only [String.append_assoc]
      rfl

theorem text_scaledQuotients (pairs : Nat) : (scaledQuotients (pairs + 1)).text = scaledText (pairs + 1) := by
  have number_ : (ofNat 2 : Expr Double).needsParens BinaryOp.mul.precedence .left .left = false := by
    decide +kernel
  have chain : (quotients (pairs + 1)).needsParens BinaryOp.mul.precedence .left .right = true := rfl
  have group : BinaryOp.mul.associativity = .left := rfl
  rw [scaledQuotients, mul_def, text, group, number_, chain, text_quotients, ofNat, text, text_two]
  rfl

theorem printable_quotients : ∀ pairs, (quotients pairs).Printable
  | 0 => .symbol ((Token.isIdentifier_iff "x").2 ⟨'x', [], rfl, rfl, by simp⟩) rfl
  | pairs + 1 => by
      have two : Scalar.isFinite (Scalar.ofNat 2 : Double) = true := by decide +kernel
      have half_ : Scalar.isFinite half = true := by decide +kernel
      exact .binary (.binary (printable_quotients pairs) (.number two)) (.number half_)

theorem numbers_quotients : ∀ pairs, ∀ value ∈ (quotients pairs).numbers,
    value = Scalar.ofNat 2 ∨ value = half
  | 0, _, mem => nomatch mem
  | pairs + 1, value, mem => by
      simp only [quotients, div_def, ofNat, numbers, List.mem_append, List.mem_singleton] at mem
      rcases mem with (inner | two) | half_
      · exact numbers_quotients pairs value inner
      · exact .inl two
      · exact .inr half_

theorem norm_quotients : ∀ pairs, (quotients pairs).norm = quotients pairs
  | 0 => rfl
  | pairs + 1 => by
      have two : (ofNat 2 : Expr Double).norm = ofNat 2 := rfl
      have half_ : (number half).norm = number half := rfl
      change binary .div (binary .div (quotients pairs).norm (ofNat 2).norm) (number half).norm = _
      rw [norm_quotients pairs, two, half_]
      rfl

/-- The text of a chain is read as the chain. -/
theorem parse_scaledText (pairs : Nat) :
    parse (scaledText (pairs + 1)) = .ok (scaledQuotients (pairs + 1)) := by
  have two : Scalar.isFinite (Scalar.ofNat 2 : Double) = true := by decide +kernel
  have printable : (scaledQuotients (pairs + 1)).Printable :=
    .binary (.number two) (printable_quotients (pairs + 1))
  have same : (scaledQuotients (pairs + 1)).norm = scaledQuotients (pairs + 1) := by
    have factor : (ofNat 2 : Expr Double).norm = ofNat 2 := rfl
    rw [scaledQuotients, mul_def, norm, norm_quotients, factor]
  have readsBack : ∀ value ∈ (scaledQuotients (pairs + 1)).numbers,
      Double.ofLiteral? value.magnitude.text = some value.magnitude := by
    intro value mem
    have known : value = Scalar.ofNat 2 ∨ value = half := by
      rcases List.mem_cons.1 mem with factor | inner
      · exact .inl factor
      · exact numbers_quotients (pairs + 1) value inner
    rcases known with rfl | rfl <;> decide +kernel
  rw [← text_scaledQuotients, (parse_text_of_printable _ printable readsBack).1, same]

/-! ### Limits -/

/-- What is read from a text comes to rest if there are more passes than nodes. -/
theorem simplifyWithin_of_parse {text : String} {e : Expr Double} {limit : Nat}
    (read : parse text = .ok e) (enough : e.nodeCount < limit) :
    ∃ simplified, e.simplifyWithin limit = .ok simplified ∧ simplified.result.AtRest := by
  obtain ⟨simplified, settled⟩ :=
    settle_of_nodeCount Double.foldsSigns Double.keeps.toKeeps (wellFormed_parse read) enough
  exact ⟨simplified, by rw [simplifyWithin, settled], atRest_of_settle settled⟩

/-- Whatever is read from a text comes to rest within any limit greater than the number of its nodes, so it
    does within the usual one if there are fewer than a thousand of them. -/
theorem pass_limit_in_nodes {text : String} {e : Expr Double} (read : parse text = .ok e) :
    (∀ limit, e.nodeCount < limit →
        ∃ simplified, e.simplifyWithin limit = .ok simplified ∧ simplified.result.AtRest) ∧
      (e.nodeCount < usualPassLimit → ∃ result, e.simplify = .ok result ∧ result.AtRest) := by
  refine ⟨fun limit enough => simplifyWithin_of_parse read enough, fun few => ?_⟩
  obtain ⟨simplified, within, rest⟩ := simplifyWithin_of_parse read few
  exact ⟨simplified.result, by rw [simplify, within], rest⟩

/-- `2 * (x / 2 / 0.5)` has seven nodes. -/
theorem pass_limit_in_nodes_quotient :
    parse (scaledText 1) = .ok (scaledQuotients 1) ∧ (scaledQuotients 1).nodeCount < usualPassLimit ∧
      (∃ simplified, (scaledQuotients 1).simplifyWithin 8 = .ok simplified ∧ simplified.result.AtRest) ∧
      ∃ result, (scaledQuotients 1).simplify = .ok result ∧ result.AtRest := by
  have read := parse_scaledText 0
  obtain ⟨within, usual⟩ := pass_limit_in_nodes read
  exact ⟨read, by decide, within 8 (by decide), usual (by decide)⟩

/-- The number of nodes cannot be done without: every limit is reached, by a text with about twice as many
    nodes. -/
theorem exists_text_reaching (limit : Nat) :
    ∃ (text : String) (e : Expr Double), parse text = .ok e ∧ e.nodeCount ≤ 2 * limit + 7 ∧
      ∃ stopped, e.simplifyWithin limit = .error stopped := by
  refine ⟨_, _, parse_scaledText (limit / 2), ?_, simplifyWithin_scaledQuotients (by omega)⟩
  rw [nodeCount_scaledQuotients]
  omega

/-- Five hundred pairs take a thousand passes, and one more to find nothing. -/
theorem pass_limit_is_reached :
    parse (scaledText 500) = .ok (scaledQuotients 500) ∧
      (scaledQuotients 500).simplify =
        .error ⟨scaledQuotients 500, usualPassLimit, ofNat 2 * symbol "x"⟩ := by
  refine ⟨parse_scaledText 499, ?_⟩
  have stops : (scaledQuotients 500).settle usualPassLimit [] = .error (scaledQuotients 0) :=
    settle_scaledQuotients 0 [] 500
  rw [simplify, simplifyWithin, stops]
  rfl

end Expr

end SymbolicCalculus
