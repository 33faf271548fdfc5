/-
Module: SymbolicCalculus.Proofs.Token.Lexing
Layer: Proofs
Purpose: Which pieces of a text become one token. The lexer takes the longest piece that it can, so a word
  is cut off behind its last character only if the text does not go on with a character that could belong
  to the word; signs are cut off wherever they stand, and blanks leave nothing.
Main exports: Apart, Token.IsIdentifier, isIdentifier_of_mem_tokensFrom, Token.IsNumeral, tokensFrom_sign,
  tokensFrom_identifier, tokensFrom_numeral, significant_sign, significant_blank
-/
import Mathlib
import SymbolicCalculus.Token.Lexer

namespace SymbolicCalculus

/-- The text does not begin with a character that could go on a name or a number. -/
def Apart (rest : List Char) : Prop := ∀ c ∈ rest.head?, isNameChar c = false ∧ c ≠ '.'

theorem apart_nil : Apart [] := by
  rintro _ ⟨⟩

theorem apart_cons {c : Char} (cs : List Char) (other : isNameChar c = false) (noPoint : c ≠ '.') :
    Apart (c :: cs) := by
  rintro _ ⟨⟩
  exact ⟨other, noPoint⟩

/-! ### Classes of characters -/

theorem isNameChar_of_isDigit {c : Char} (digit : c.isDigit = true) : isNameChar c = true := by
  simp [isNameChar, Char.isAlphanum, digit]

theorem isNameStart_of_isDigit {c : Char} (digit : c.isDigit = true) : isNameStart c = false := by
  simp only [Char.isDigit, Bool.and_eq_true, decide_eq_true_eq] at digit
  obtain ⟨low, high⟩ := digit
  have notLetter : c.isAlpha = false := by
    simp only [Char.isAlpha, Char.isUpper, Char.isLower]
    grind
  have notLine : c ≠ '_' := by
    rintro rfl
    exact absurd high (by decide)
  simp [isNameStart, notLetter, notLine]

theorem isGap_of_isNameChar {c : Char} (goesOn : isNameChar c = true) : isGap c = false := by
  simp only [isGap, Bool.or_eq_false_iff, beq_eq_false_iff_ne]
  refine ⟨⟨⟨?_, ?_⟩, ?_⟩, ?_⟩ <;> rintro rfl <;> exact absurd goesOn (by decide)

theorem isNameChar_of_isNameStart {c : Char} (starts : isNameStart c = true) :
    isNameChar c = true := by
  simp only [isNameStart, isNameChar, Char.isAlphanum, Bool.or_eq_true] at starts ⊢
  rcases starts with letter | line
  · exact .inl (.inl letter)
  · exact .inr line

/-- A class of characters within the names takes all of a word and nothing behind it. -/
theorem Apart.takeWhile {goesOn : Char → Bool} {word rest : List Char} (apart : Apart rest)
    (within : ∀ c, goesOn c = true → isNameChar c = true) (all : ∀ c ∈ word, goesOn c = true) :
    (word ++ rest).takeWhile goesOn = word ∧ (word ++ rest).dropWhile goesOn = rest := by
  rw [List.takeWhile_append_of_pos all, List.dropWhile_append_of_pos all]
  cases rest with
  | nil => simp
  | cons c cs =>
    have stops : ¬ goesOn c = true := by
      intro takes
      exact Bool.false_ne_true ((apart c rfl).1.symm.trans (within c takes))
    simp [stops]

/-! ### One token -/

/-- The token that a piece of the text at a place becomes. -/
def tokenAt (start : Nat) (kind : TokenKind) (piece : List Char) : Token :=
  ⟨kind, ⟨start, start + utf8Length piece⟩, String.ofList piece⟩

@[simp] theorem lexeme_tokenAt (start : Nat) (kind : TokenKind) (text : String) :
    (tokenAt start kind text.toList).lexeme = text := String.ofList_toList

theorem tokensFrom_piece {kind : TokenKind} {c : Char} {cs rest : List Char} (start : Nat)
    (first : firstToken c (cs ++ rest) = ⟨kind, cs, rest⟩) :
    tokensFrom start (c :: cs ++ rest) =
      tokenAt start kind (c :: cs) :: tokensFrom (start + utf8Length (c :: cs)) rest := by
  rw [List.cons_append, tokensFrom, first]
  rfl

/-- A sign is cut off wherever it stands. -/
theorem tokensFrom_sign {kind : TokenKind} {c : Char} (start : Nat) (rest : List Char)
    (sign : TokenKind.ofChar? c = some kind) :
    tokensFrom start (c :: rest) =
      tokenAt start kind [c] :: tokensFrom (start + utf8Length [c]) rest := by
  have first : firstToken c ([] ++ rest) = ⟨kind, [], rest⟩ := by
    unfold TokenKind.ofChar? at sign
    split at sign <;> cases sign <;> rfl
  exact tokensFrom_piece start first

/-- A name is cut off as all characters of names behind one that begins a name. -/
theorem firstToken_of_name {c : Char} {cs : List Char} (is_name : (firstToken c cs).kind = .name) :
    isNameStart c = true ∧ firstToken c cs = .run .name isNameChar cs := by
  unfold firstToken at is_name ⊢
  split at is_name
  · cases is_name
  · next noGap =>
    split at is_name
    · next starts => exact ⟨starts, by rw [if_neg noGap, if_pos starts]⟩
    · -- the other branches make numbers and signs
      exfalso
      split at is_name
      · split at is_name <;> cases is_name
      · split at is_name
        · cases is_name
        · change (TokenKind.ofChar? c).getD .symbol = .name at is_name
          revert is_name
          unfold TokenKind.ofChar?
          split <;> decide

/-- The text is a name: the lexer makes one token of it, and that is a name. -/
def Token.IsIdentifier (name : String) : Prop :=
  ∃ token, tokenize name = [token] ∧ token.kind = .name

/-- A name is a letter or an underscore with more letters, underscores and digits behind it. -/
theorem Token.isIdentifier_iff (name : String) :
    Token.IsIdentifier name ↔ ∃ c cs, name.toList = c :: cs ∧ isNameStart c = true ∧
      ∀ next ∈ cs, isNameChar next = true := by
  constructor
  · rintro ⟨token, single, is_name⟩
    rw [tokenize] at single
    generalize name.toList = text at single
    cases text with
    | nil => simp [tokensFrom] at single
    | cons c cs =>
      rw [tokensFrom] at single
      obtain ⟨rfl, others⟩ := List.cons.inj single
      obtain ⟨starts, first⟩ := firstToken_of_name is_name
      have whole : (firstToken c cs).rest = [] := by
        cases left : (firstToken c cs).rest with
        | nil => rfl
        | cons next more => simp [left, tokensFrom] at others
      rw [first] at whole
      exact ⟨c, cs, rfl, starts, List.dropWhile_eq_nil_iff.1 whole⟩
  · rintro ⟨c, cs, text, starts, goesOn⟩
    have noGap := isGap_of_isNameChar (isNameChar_of_isNameStart starts)
    have first : firstToken c (cs ++ []) = ⟨.name, cs, []⟩ := by
      obtain ⟨takes, leaves⟩ := apart_nil.takeWhile (fun _ takes => takes) goesOn
      simp only [firstToken, noGap, starts, FirstToken.run, takes, leaves]
      rfl
    refine ⟨tokenAt 0 .name (c :: cs), ?_, rfl⟩
    have single := tokensFrom_piece 0 first
    rw [List.append_nil] at single
    rw [tokenize, text, single, tokensFrom]

/-- The names that the lexer finds in a text are names. -/
theorem isIdentifier_of_mem_tokensFrom {start : Nat} {text : List Char} {token : Token}
    (mem : token ∈ tokensFrom start text) (is_name : token.kind = .name) :
    Token.IsIdentifier token.lexeme := by
  fun_induction tokensFrom start text with
  | case1 => cases mem
  | case2 start c cs first lexeme stop ih =>
    rcases List.mem_cons.1 mem with rfl | later
    · obtain ⟨starts, run⟩ := firstToken_of_name is_name
      have tail : first.tail = cs.takeWhile isNameChar := congrArg FirstToken.tail run
      refine (Token.isIdentifier_iff _).2 ⟨c, first.tail, String.toList_ofList, starts, ?_⟩
      rw [tail]
      exact fun next inside => List.all_eq_true.1 List.all_takeWhile next inside
    · exact ih later

theorem tokensFrom_identifier {name : String} {rest : List Char} (start : Nat)
    (identifier : Token.IsIdentifier name) (apart : Apart rest) :
    tokensFrom start (name.toList ++ rest) =
      tokenAt start .name name.toList :: tokensFrom (start + utf8Length name.toList) rest := by
  obtain ⟨c, cs, text, starts, goesOn⟩ := (Token.isIdentifier_iff name).1 identifier
  obtain ⟨takes, leaves⟩ := apart.takeWhile (fun _ takes => takes) goesOn
  have noGap := isGap_of_isNameChar (isNameChar_of_isNameStart starts)
  rw [text]
  exact tokensFrom_piece start (by simp [firstToken, noGap, starts, FirstToken.run, takes, leaves])

/-- The characters are digits with an optional fraction behind a point. -/
def Token.IsNumeral (text : List Char) : Prop :=
  ∃ whole fraction : List Char, whole ≠ [] ∧ (∀ c ∈ whole ++ fraction, c.isDigit = true) ∧
    (text = whole ∨ text = whole ++ '.' :: fraction)

theorem tokensFrom_numeral {text rest : List Char} (start : Nat) (numeral : Token.IsNumeral text)
    (apart : Apart rest) :
    ∃ kind, (kind = .int ∨ kind = .float) ∧ tokensFrom start (text ++ rest) =
      tokenAt start kind text :: tokensFrom (start + utf8Length text) rest := by
  obtain ⟨whole, fraction, filled, digits, form⟩ := numeral
  obtain ⟨d, ds, rfl⟩ := List.exists_cons_of_ne_nil filled
  have first : d.isDigit = true := digits d (by simp)
  have noGap := isGap_of_isNameChar (isNameChar_of_isDigit first)
  have noName := isNameStart_of_isDigit first
  have others : ∀ c ∈ ds, c.isDigit = true := fun c mem => digits c (by simp [mem])
  rcases form with rfl | rfl
  · refine ⟨.int, .inl rfl, tokensFrom_piece start ?_⟩
    obtain ⟨takes, leaves⟩ := apart.takeWhile (fun _ => isNameChar_of_isDigit) others
    simp only [firstToken, noGap, noName, first, if_true, Bool.false_eq_true, if_false, takes,
      leaves]
    split
    · exact absurd rfl (apart '.' rfl).2
    · rfl
  · have behind : ∀ c ∈ fraction, c.isDigit = true := fun c mem => digits c (by simp [mem])
    obtain ⟨takes, leaves⟩ := apart.takeWhile (fun _ => isNameChar_of_isDigit) behind
    have point : ¬ '.'.isDigit = true := by decide
    have piece : firstToken d ((ds ++ '.' :: fraction) ++ rest) =
        ⟨.float, ds ++ '.' :: fraction, rest⟩ := by
      rw [List.append_assoc, List.cons_append]
      simp only [firstToken, noGap, noName, first, if_true, Bool.false_eq_true, if_false,
        List.takeWhile_append_of_pos others, List.dropWhile_append_of_pos others,
        List.takeWhile_cons_of_neg point, List.dropWhile_cons_of_neg point, takes, leaves,
        List.append_nil]
    exact ⟨.float, .inr rfl, tokensFrom_piece start piece⟩

/-! ### Significant tokens -/

theorem significant_tokenAt {kind : TokenKind} (start : Nat) (piece : List Char)
    (others : List Token) (visible : kind ≠ .blank) :
    significant (tokenAt start kind piece :: others) =
      tokenAt start kind piece :: significant others :=
  List.filter_cons_of_pos (bne_iff_ne.2 visible)

theorem significant_sign {kind : TokenKind} {c : Char} (start : Nat) (rest : List Char)
    (sign : TokenKind.ofChar? c = some kind) :
    significant (tokensFrom start (c :: rest)) =
      tokenAt start kind [c] :: significant (tokensFrom (start + utf8Length [c]) rest) := by
  rw [tokensFrom_sign start rest sign, significant_tokenAt]
  rintro rfl
  unfold TokenKind.ofChar? at sign
  split at sign <;> cases sign

/-- Characters between tokens leave nothing. -/
theorem significant_gap {gap : Char} (start : Nat) (rest : List Char) (isGap_ : isGap gap = true) :
    significant (tokensFrom start (gap :: rest)) =
      significant (tokensFrom (start + gap.utf8Size) rest) := by
  have blank : firstToken gap rest = .run .blank isGap rest := if_pos isGap_
  rw [tokensFrom, blank]
  cases rest with
  | nil => rfl
  | cons c cs =>
    by_cases goesOn : isGap c = true
    · -- both runs of blanks end at the same place
      have next : firstToken c cs = .run .blank isGap cs := if_pos goesOn
      rw [tokensFrom, next]
      simp only [FirstToken.run, List.takeWhile_cons_of_pos goesOn,
        List.dropWhile_cons_of_pos goesOn]
      have place : start + utf8Length (gap :: c :: cs.takeWhile isGap) =
          start + gap.utf8Size + utf8Length (c :: cs.takeWhile isGap) :=
        (Nat.add_assoc _ _ _).symm
      rw [place]
      rfl
    · simp only [FirstToken.run, List.takeWhile_cons_of_neg goesOn,
        List.dropWhile_cons_of_neg goesOn]
      rfl

theorem significant_blank (start : Nat) (rest : List Char) :
    significant (tokensFrom start (' ' :: rest)) =
      significant (tokensFrom (start + ' '.utf8Size) rest) :=
  significant_gap start rest rfl

end SymbolicCalculus
