/-
Module: SymbolicCalculus.Proofs.Double.Writing
Layer: Proofs
Purpose: How machine numbers are written: a finite one is a row of digits with an optional fraction,
  behind a minus sign if its sign bit is set. With this the round trip of printed expressions holds for
  machine numbers, given only that the digits of the numbers in them read back.
Main exports: Double.magnitude, Double.text_of_minus, Double.isNumeral_text, Double.writtenWithSign,
  Expr.parse_text_of_printable
-/
import SymbolicCalculus.Proofs.Double.Bits
import SymbolicCalculus.Proofs.Expr.RoundTrip

namespace SymbolicCalculus

namespace Decimal

theorem isDigit_digitText (n : Nat) : ∀ c ∈ digitText n, c.isDigit = true :=
  fun _ mem => Nat.isDigit_of_mem_toDigits (by decide) (by decide) mem

theorem isDigit_replicate (n : Nat) : ∀ c ∈ List.replicate n '0', c.isDigit = true := by
  intro c mem
  rw [List.eq_of_mem_replicate mem]
  decide

theorem isDigit_append {first second : List Char} (digits : ∀ c ∈ first, c.isDigit = true)
    (digits' : ∀ c ∈ second, c.isDigit = true) : ∀ c ∈ first ++ second, c.isDigit = true := by
  intro c mem
  rcases List.mem_append.1 mem with front | back
  · exact digits c front
  · exact digits' c back

/-- A decimal is written as digits with an optional fraction. -/
theorem isNumeral_positional (d : Decimal) : Token.IsNumeral d.positional := by
  unfold positional
  simp only
  split
  · refine ⟨_, [], ?_, ?_, .inl rfl⟩
    · exact List.append_ne_nil_of_left_ne_nil Nat.toDigits_ne_nil _
    · rw [List.append_nil]
      exact isDigit_append (isDigit_digitText _) (isDigit_replicate _)
  · refine ⟨_, _, ?_, ?_, .inr rfl⟩
    · -- zeroes are put before the digits until there are more of them than places
      have longer : ∀ places length : Nat, 0 < places + 1 - length + length - places := by omega
      refine List.ne_nil_of_length_pos ?_
      rw [List.length_take, List.length_append, List.length_replicate]
      have filled := longer (-d.exponent).toNat (digitText d.digits).length
      omega
    · rw [List.take_append_drop]
      exact isDigit_append (isDigit_replicate _) (isDigit_digitText _)

end Decimal

namespace Double

/-- The number without its sign. -/
def magnitude (x : Double) : Double := if x.hasMinus then -x else x

section Finite

variable {x : Double} (finite : Scalar.isFinite x = true)
include finite

theorem neg_neg : - -x = x := by
  have number := isNaN_of_isFinite finite
  have value : - -x.value = x.value := neg_neg_float number
  refine Double.ext value ?_
  change ((- -x.value).isNaN && _) = x.minusOfNaN
  rw [value, number, minusOfNaN_of_isFinite finite, Bool.false_and]

/-- The sign of a finite number is its topmost bit. -/
theorem hasMinus_eq : x.hasMinus = x.value.toBits.toNat.testBit 63 := by
  rw [hasMinus, isNaN_of_isFinite finite]
  rfl

theorem hasMinus_neg : (-x).hasMinus = !x.hasMinus := by
  rw [hasMinus_eq finite, hasMinus_eq (isFinite_neg finite)]
  exact testBit_neg (isNaN_of_isFinite finite)

/-- The text of a finite number is that of its magnitude, behind a minus sign if there is one. -/
theorem text_eq : x.text =
    if x.hasMinus then "-" ++ String.ofList (Binary.ofFloat x.value).shortest.positional
    else String.ofList (Binary.ofFloat x.value).shortest.positional := by
  have finite' : x.value.isFinite = true := finite
  simp only [text, isNaN_of_isFinite finite, finite', Bool.false_eq_true, if_false, if_true]

theorem text_of_minus (minus : x.hasMinus = true) : x.text = "-" ++ (-x).text := by
  have positive : (-x).hasMinus = false := by rw [hasMinus_neg finite, minus]; rfl
  have same : Binary.ofFloat (-x).value = Binary.ofFloat x.value :=
    Binary.ofFloat_neg (isNaN_of_isFinite finite)
  rw [text_eq finite, text_eq (isFinite_neg finite), minus, positive, same]
  rfl

theorem isNumeral_text (noMinus : x.hasMinus = false) : Token.IsNumeral x.text.toList := by
  rw [text_eq finite, noMinus, if_neg Bool.false_ne_true, String.toList_ofList]
  exact Decimal.isNumeral_positional _

/-- A finite number is written with its sign if the digits of its magnitude read back. -/
theorem writtenWithSign (readsBack : ofLiteral? x.magnitude.text = some x.magnitude) :
    Expr.WrittenWithSign x := by
  unfold Expr.WrittenWithSign
  change if x.hasMinus = true then _ else _
  unfold magnitude at readsBack
  split
  · next minus =>
    rw [if_pos minus] at readsBack
    have positive : (-x).hasMinus = false := by rw [hasMinus_neg finite, minus]; rfl
    exact ⟨text_of_minus finite minus, isNumeral_text (isFinite_neg finite) positive, readsBack⟩
  · next noMinus =>
    rw [if_neg noMinus] at readsBack
    exact ⟨isNumeral_text finite (Bool.eq_false_iff.2 noMinus), readsBack⟩

end Finite

end Double

namespace Expr

/-- A printed expression over machine numbers reads back as itself, with its negative numbers as negated
    ones, and has the same value or the same error everywhere. What is assumed is only that the digits
    of the numbers in it read back. -/
theorem parse_text_of_printable (e : Expr Double) (printable : e.Printable)
    (readsBack : ∀ value ∈ e.numbers,
      Double.ofLiteral? value.magnitude.text = some value.magnitude) :
    Expr.parse e.text = .ok e.norm ∧
      ∀ context : Context Double, e.norm.evaluate context = e.evaluate context := by
  constructor
  · refine printable.parse_text fun value mem => ?_
    exact Double.writtenWithSign (printable.isFinite value mem) (readsBack value mem)
  · refine printable.evaluate_norm fun value mem _ => ?_
    exact Double.neg_neg (printable.isFinite value mem)

/-- The expression `(-x)^(-2.5)`, in which a minus sign stands before a variable and in a number. -/
theorem parse_text_of_negative_power :
    (binary .pow (neg (symbol "x")) (number (-Double.ofFloat 2.5))).Printable ∧
    Expr.parse (binary .pow (neg (symbol "x")) (number (-Double.ofFloat 2.5))).text =
      .ok (binary .pow (neg (symbol "x")) (number (-Double.ofFloat 2.5))).norm := by
  have x : Token.IsIdentifier "x" := (Token.isIdentifier_iff "x").2 ⟨'x', [], rfl, rfl, by simp⟩
  have exponent : Scalar.isFinite (-Double.ofFloat 2.5) = true := by decide +kernel
  have printable : (binary .pow (neg (symbol "x")) (number (-Double.ofFloat 2.5))).Printable :=
    .binary (.neg (.symbol x rfl)) (.number exponent)
  refine ⟨printable, (parse_text_of_printable _ printable ?_).1⟩
  intro value mem
  rw [List.mem_singleton.1 mem]
  decide +kernel

end Expr

end SymbolicCalculus
