/-
Module: SymbolicCalculus.Proofs.Token.MaximalMunch
Layer: Proofs
Purpose: The lexer against the patterns of the tokens. Each kind of token has a regular language of
  lexemes, and a text is cut up by the rule of the longest match: at every place the longest piece in any
  of the languages is cut off, with the kind whose language it is in. The rule leaves no choice, and the
  lexer follows it. The tokens therefore cover the text without a gap, and a text that is cut at the ends
  of tokens has the same tokens in its pieces.
Main exports: TokenKind.pattern, Munches, munches_of_firstToken, Munches.firstToken_eq, Tiles, tiles_iff,
  Adjoin, tokenize_slice, tokens_tile_text
-/
import Mathlib
import SymbolicCalculus.Proofs.Token.Tiling

namespace SymbolicCalculus

open scoped Computability

/-! ### Patterns -/

/-- The words of one character of a class. -/
def oneOf (belongs : Char → Bool) : Language Char := {word | ∃ c, belongs c = true ∧ word = [c]}

/-- The words of one or more characters of a class. -/
def runOf (belongs : Char → Bool) : Language Char := oneOf belongs * (oneOf belongs)∗

/-- The lexemes of a kind, as a regular language. -/
def TokenKind.pattern : TokenKind → Language Char
  | blank => runOf isGap
  | plus => {['+']}
  | minus => {['-']}
  | star => {['*']}
  | slash => {['/']}
  | caret => {['^']}
  | comma => {[',']}
  | openParen => {['(']}
  | closeParen => {[')']}
  | name => oneOf isNameStart * (oneOf isNameChar)∗
  | int => runOf Char.isDigit
  | float => runOf Char.isDigit * {['.']} * (oneOf Char.isDigit)∗ + {['.']} * runOf Char.isDigit
  | symbol => oneOf (· != '\n')

theorem mem_kstar_oneOf {belongs : Char → Bool} {word : List Char} :
    word ∈ (oneOf belongs)∗ ↔ ∀ c ∈ word, belongs c = true := by
  rw [Language.mem_kstar]
  constructor
  · rintro ⟨letters, rfl, each⟩ c mem
    obtain ⟨letter, inside, mem⟩ := List.mem_flatten.1 mem
    obtain ⟨_, belongs_, rfl⟩ := each letter inside
    rwa [List.mem_singleton.1 mem]
  · intro each
    refine ⟨word.map fun c => [c], by rw [← List.flatMap_def, List.flatMap_singleton'], ?_⟩
    simp only [List.mem_map]
    rintro _ ⟨c, mem, rfl⟩
    exact ⟨c, each c mem, rfl⟩

theorem mem_oneOf_mul {belongs : Char → Bool} {others : Language Char} {word : List Char} :
    word ∈ oneOf belongs * others ↔ ∃ c cs, word = c :: cs ∧ belongs c = true ∧ cs ∈ others := by
  rw [Language.mem_mul]
  constructor
  · rintro ⟨_, ⟨c, belongs_, rfl⟩, cs, mem, rfl⟩
    exact ⟨c, cs, rfl, belongs_, mem⟩
  · rintro ⟨c, cs, rfl, belongs_, mem⟩
    exact ⟨[c], ⟨c, belongs_, rfl⟩, cs, mem, rfl⟩

theorem mem_runOf {belongs : Char → Bool} {word : List Char} :
    word ∈ runOf belongs ↔ word ≠ [] ∧ ∀ c ∈ word, belongs c = true := by
  rw [runOf, mem_oneOf_mul]
  constructor
  · rintro ⟨c, cs, rfl, first, others⟩
    exact ⟨List.cons_ne_nil c cs, List.forall_mem_cons.2 ⟨first, mem_kstar_oneOf.1 others⟩⟩
  · rintro ⟨filled, each⟩
    obtain ⟨c, cs, rfl⟩ := List.exists_cons_of_ne_nil filled
    obtain ⟨first, others⟩ := List.forall_mem_cons.1 each
    exact ⟨c, cs, rfl, first, mem_kstar_oneOf.2 others⟩

/-- A number with a point has digits around it, on one side at least. -/
theorem mem_pattern_float {word : List Char} :
    word ∈ TokenKind.float.pattern ↔ ∃ whole fraction, word = whole ++ '.' :: fraction ∧
      (whole ≠ [] ∨ fraction ≠ []) ∧ (∀ c ∈ whole, c.isDigit = true) ∧
      ∀ c ∈ fraction, c.isDigit = true := by
  have point {piece : List Char} : piece ∈ ({['.']} : Language Char) ↔ piece = ['.'] := Iff.rfl
  simp only [TokenKind.pattern, Language.mem_add, Language.mem_mul, mem_runOf, mem_kstar_oneOf,
    point]
  constructor
  · rintro (⟨_, ⟨whole, ⟨filled, digits⟩, _, rfl, rfl⟩, fraction, behind, rfl⟩ |
      ⟨_, rfl, fraction, ⟨filled, behind⟩, rfl⟩)
    · exact ⟨whole, fraction, by simp, .inl filled, digits, behind⟩
    · exact ⟨[], fraction, rfl, .inr filled, by simp, behind⟩
  · rintro ⟨whole, fraction, rfl, filled, digits, behind⟩
    cases whole with
    | nil => exact .inr ⟨['.'], rfl, fraction, ⟨filled.resolve_left (· rfl), behind⟩, rfl⟩
    | cons c cs =>
      refine .inl ⟨c :: cs ++ ['.'], ⟨c :: cs, ⟨List.cons_ne_nil c cs, digits⟩, _, rfl, rfl⟩,
        fraction, behind, by simp⟩

/-- A sign is the only word of its kind. -/
theorem pattern_of_ofChar? {c : Char} {kind : TokenKind} (sign : TokenKind.ofChar? c = some kind) :
    kind.pattern = {[c]} := by
  unfold TokenKind.ofChar? at sign
  split at sign <;> cases sign <;> rfl

/-! ### The lexer and the patterns -/

/-- The lexer cuts off words of the patterns. -/
theorem firstToken_mem_pattern (c : Char) (cs : List Char) :
    c :: (firstToken c cs).tail ∈ (firstToken c cs).kind.pattern := by
  unfold firstToken
  split
  · next gap =>
    exact mem_runOf.2 ⟨List.cons_ne_nil _ _,
      List.forall_mem_cons.2 ⟨gap, fun _ => List.mem_takeWhile_imp⟩⟩
  next noGap =>
  split
  · next starts =>
    exact mem_oneOf_mul.2 ⟨c, _, rfl, starts, mem_kstar_oneOf.2 fun _ => List.mem_takeWhile_imp⟩
  split
  · next digit =>
    have digits : ∀ d ∈ c :: cs.takeWhile Char.isDigit, d.isDigit = true :=
      List.forall_mem_cons.2 ⟨digit, fun _ => List.mem_takeWhile_imp⟩
    split
    · exact mem_pattern_float.2
        ⟨_, _, rfl, .inl (List.cons_ne_nil _ _), digits, fun _ => List.mem_takeWhile_imp⟩
    · exact mem_runOf.2 ⟨List.cons_ne_nil _ _, digits⟩
  split
  · next point =>
    rw [Bool.and_eq_true, beq_iff_eq, Bool.not_eq_true', List.isEmpty_eq_false_iff] at point
    obtain ⟨rfl, filled⟩ := point
    exact mem_pattern_float.2
      ⟨[], _, rfl, .inr filled, by simp, fun _ => List.mem_takeWhile_imp⟩
  · cases sign : TokenKind.ofChar? c with
    | some kind =>
      rw [Option.getD_some, pattern_of_ofChar? sign]
      exact rfl
    | none =>
      -- a line break would have been a blank
      have noBreak : c ≠ '\n' := by
        rintro rfl
        exact noGap rfl
      exact ⟨c, by simpa using noBreak, rfl⟩

/-- A run takes the characters of its class that the text begins with, and more of them. -/
theorem FirstToken.run_append (kind : TokenKind) {goesOn : Char → Bool} {cs : List Char}
    (each : ∀ c ∈ cs, goesOn c = true) (rest : List Char) :
    run kind goesOn (cs ++ rest) = ⟨kind, cs ++ rest.takeWhile goesOn, rest.dropWhile goesOn⟩ := by
  rw [run, List.takeWhile_append_of_pos each, List.dropWhile_append_of_pos each]

/-- A number with a point is cut off with all digits behind it. -/
theorem firstToken_of_mem_float {c : Char} {cs : List Char}
    (word : c :: cs ∈ TokenKind.float.pattern) (rest : List Char) :
    firstToken c (cs ++ rest) =
      ⟨.float, cs ++ rest.takeWhile Char.isDigit, rest.dropWhile Char.isDigit⟩ := by
  obtain ⟨whole, fraction, pieces, filled, digits, behind⟩ := mem_pattern_float.1 word
  cases whole with
  | nil =>
    obtain ⟨rfl, rfl⟩ := List.cons.inj pieces
    have takes : (cs ++ rest).takeWhile Char.isDigit = cs ++ rest.takeWhile Char.isDigit :=
      List.takeWhile_append_of_pos behind
    have point : cs ≠ [] := filled.resolve_left (· rfl)
    rw [firstToken, if_neg (by decide), if_neg (by decide), if_neg (by decide),
      if_pos (by simp [takes, point]), FirstToken.run_append .float behind]
  | cons d ds =>
    rw [List.cons_append] at pieces
    obtain ⟨rfl, rfl⟩ := List.cons.inj pieces
    obtain ⟨digit, others⟩ := List.forall_mem_cons.1 digits
    have noGap := isGap_of_isNameChar (isNameChar_of_isDigit digit)
    have noName := isNameStart_of_isDigit digit
    have point : ¬ '.'.isDigit = true := by decide
    rw [List.append_assoc, List.cons_append]
    simp only [firstToken, noGap, noName, digit, if_true, Bool.false_eq_true, if_false,
      List.takeWhile_append_of_pos others, List.dropWhile_append_of_pos others,
      List.takeWhile_cons_of_neg point, List.dropWhile_cons_of_neg point, List.append_nil,
      List.takeWhile_append_of_pos behind, List.dropWhile_append_of_pos behind, List.append_assoc,
      List.cons_append]

/-- The lexer cuts off no less than a word of a pattern at the front of the text, with the kind of the word
    unless a number goes on behind a point. -/
theorem firstToken_of_mem_pattern {kind : TokenKind} {c : Char} {cs : List Char}
    (word : c :: cs ∈ kind.pattern) (known : kind ≠ .symbol) (rest : List Char) :
    ∃ kind' more after, firstToken c (cs ++ rest) = ⟨kind', cs ++ more, after⟩ ∧
      (kind' = kind ∨ kind' = .float ∧ more ≠ []) := by
  have sign {mark : Char} (is_mark : c :: cs ∈ ({[mark]} : Language Char)) : c = mark ∧ cs = [] :=
    List.cons.inj is_mark
  cases kind with
  | symbol => exact absurd rfl known
  | plus | minus | star | slash | caret | comma | openParen | closeParen =>
    obtain ⟨rfl, rfl⟩ := sign word
    exact ⟨_, [], rest, rfl, .inl rfl⟩
  | blank =>
    obtain ⟨gap, others⟩ := List.forall_mem_cons.1 (mem_runOf.1 word).2
    exact ⟨.blank, _, _, (if_pos gap).trans (FirstToken.run_append .blank others rest), .inl rfl⟩
  | name =>
    obtain ⟨_, _, ⟨⟩, starts, others⟩ := mem_oneOf_mul.1 word
    have noGap := isGap_of_isNameChar (isNameChar_of_isNameStart starts)
    have first : firstToken c (cs ++ rest) = .run .name isNameChar (cs ++ rest) := by
      rw [firstToken, if_neg (by simp [noGap]), if_pos starts]
    exact ⟨.name, _, _,
      first.trans (FirstToken.run_append .name (mem_kstar_oneOf.1 others) rest), .inl rfl⟩
  | int =>
    obtain ⟨digit, others⟩ := List.forall_mem_cons.1 (mem_runOf.1 word).2
    have noGap := isGap_of_isNameChar (isNameChar_of_isDigit digit)
    have noName := isNameStart_of_isDigit digit
    simp only [firstToken, noGap, noName, digit, if_true, Bool.false_eq_true, if_false,
      List.takeWhile_append_of_pos others, List.dropWhile_append_of_pos others]
    split
    · exact ⟨.float, _, _, by rw [List.append_assoc], .inr ⟨rfl, by simp⟩⟩
    · exact ⟨.int, _, _, rfl, .inl rfl⟩
  | float => exact ⟨.float, _, _, firstToken_of_mem_float word rest, .inl rfl⟩

/-- A word of the last resort is one character. -/
theorem eq_nil_of_mem_pattern_symbol {c : Char} {cs : List Char}
    (word : c :: cs ∈ TokenKind.symbol.pattern) : cs = [] := by
  obtain ⟨_, -, single⟩ := word
  exact (List.cons.inj single).2

/-- The words of the patterns are not empty. -/
theorem exists_cons_of_mem_pattern {kind : TokenKind} {word : List Char}
    (mem : word ∈ kind.pattern) : ∃ c cs, word = c :: cs := by
  have single {mark : Char} (is_mark : word ∈ ({[mark]} : Language Char)) : word = [mark] := is_mark
  cases kind with
  | plus | minus | star | slash | caret | comma | openParen | closeParen =>
    exact ⟨_, _, single mem⟩
  | blank | int => exact List.exists_cons_of_ne_nil (mem_runOf.1 mem).1
  | name =>
    obtain ⟨c, cs, rfl, -⟩ := mem_oneOf_mul.1 mem
    exact ⟨c, cs, rfl⟩
  | float =>
    obtain ⟨whole, fraction, rfl, -⟩ := mem_pattern_float.1 mem
    exact List.exists_cons_of_ne_nil (by simp)
  | symbol =>
    obtain ⟨c, -, rfl⟩ := mem
    exact ⟨c, [], rfl⟩

/-! ### The longest match -/

/-- The rule by which a piece at the front of a text is cut off. No longer piece at the front matches the
    pattern of any kind, and the kind of last resort is taken only where no other one matches. -/
structure Munches (kind : TokenKind) (piece rest : List Char) : Prop where
  matched : piece ∈ kind.pattern
  longest : ∀ (other : TokenKind) (longer : List Char), longer ∈ other.pattern →
    longer <+: piece ++ rest → longer.length ≤ piece.length
  lastResort : kind = .symbol → ∀ (other : TokenKind) (word : List Char), other ≠ .symbol →
    word ∈ other.pattern → ¬ word <+: piece ++ rest

/-- What the lexer cuts off is cut off by the rule. -/
theorem munches_of_firstToken {kind : TokenKind} {c : Char} {cs rest : List Char}
    (first : firstToken c (cs ++ rest) = ⟨kind, cs, rest⟩) : Munches kind (c :: cs) rest := by
  -- the word of another kind at the front is within what the lexer cuts off
  have within {other : TokenKind} {word : List Char} (known : other ≠ .symbol)
      (mem : word ∈ other.pattern) (front : word <+: c :: cs ++ rest) :
      word.length ≤ (c :: cs).length ∧ kind ≠ .symbol := by
    obtain ⟨d, ds, rfl⟩ := exists_cons_of_mem_pattern mem
    obtain ⟨after, front⟩ := front
    rw [List.cons_append, List.cons_append] at front
    obtain ⟨rfl, whole⟩ := List.cons.inj front
    obtain ⟨kind', more, _, first', kinds⟩ := firstToken_of_mem_pattern mem known after
    have same : (⟨kind, cs, rest⟩ : FirstToken) = ⟨kind', ds ++ more, _⟩ :=
      first.symm.trans (whole ▸ first')
    obtain ⟨rfl, rfl, -⟩ := FirstToken.mk.inj same
    refine ⟨by simp, ?_⟩
    rcases kinds with rfl | ⟨rfl, -⟩
    · exact known
    · decide
  refine ⟨?_, fun other longer mem front => ?_, fun is_symbol other word known mem front =>
    (within known mem front).2 is_symbol⟩
  · have word := firstToken_mem_pattern c (cs ++ rest)
    rwa [first] at word
  · by_cases known : other = .symbol
    · obtain ⟨d, ds, rfl⟩ := exists_cons_of_mem_pattern mem
      subst known
      rw [eq_nil_of_mem_pattern_symbol mem]
      simp
    · exact (within known mem front).1

/-- What is cut off by the rule is what the lexer cuts off, so that the rule leaves no choice. -/
theorem Munches.firstToken_eq {kind : TokenKind} {c : Char} {cs rest : List Char}
    (munches : Munches kind (c :: cs) rest) : firstToken c (cs ++ rest) = ⟨kind, cs, rest⟩ := by
  have word := firstToken_mem_pattern c (cs ++ rest)
  have lossless := firstToken_lossless c (cs ++ rest)
  have front : c :: (firstToken c (cs ++ rest)).tail <+: c :: cs ++ rest :=
    ⟨_, congrArg (c :: ·) lossless⟩
  suffices same : (firstToken c (cs ++ rest)).kind = kind ∧ (firstToken c (cs ++ rest)).tail = cs by
    generalize firstToken c (cs ++ rest) = first at lossless same
    obtain ⟨_, _, after⟩ := first
    obtain ⟨rfl, rfl⟩ := same
    obtain rfl : after = rest := List.append_cancel_left lossless
    rfl
  by_cases known : kind = .symbol
  · have is_symbol : (firstToken c (cs ++ rest)).kind = .symbol := by
      by_contra other
      exact munches.lastResort known _ _ other word front
    rw [is_symbol] at word
    have single := munches.matched
    rw [known] at single
    exact ⟨is_symbol.trans known.symm,
      (eq_nil_of_mem_pattern_symbol word).trans (eq_nil_of_mem_pattern_symbol single).symm⟩
  · obtain ⟨kind', more, after, first, kinds⟩ :=
      firstToken_of_mem_pattern munches.matched known rest
    have shorter := munches.longest _ _ word front
    rw [first] at shorter ⊢
    have noMore : more = [] := by
      simp only [List.length_cons, List.length_append] at shorter
      exact List.eq_nil_of_length_eq_zero (by omega)
    exact ⟨kinds.resolve_right fun longer => longer.2 noMore, by rw [noMore, List.append_nil]⟩

/-! ### Tilings -/

/-- The tokens of a text whose first character stands at a place, each cut off by the rule. -/
inductive Tiles : Nat → List Char → List Token → Prop
  | nil (start : Nat) : Tiles start [] []
  | cons {start : Nat} {kind : TokenKind} {piece rest : List Char} {tokens : List Token}
      (munches : Munches kind piece rest)
      (others : Tiles (start + utf8Length piece) rest tokens) :
      Tiles start (piece ++ rest) (tokenAt start kind piece :: tokens)

/-- There is one way to cut up a text by the rule, the way of the lexer. -/
theorem tiles_iff {start : Nat} {text : List Char} {tokens : List Token} :
    Tiles start text tokens ↔ tokens = tokensFrom start text := by
  constructor
  · intro tiles
    induction tiles with
    | nil start => exact (tokensFrom_nil start).symm
    | cons munches _ ih =>
      obtain ⟨c, cs, rfl⟩ := exists_cons_of_mem_pattern munches.matched
      rw [tokensFrom_piece _ munches.firstToken_eq, ih]
  · rintro rfl
    fun_induction tokensFrom start text with
    | case1 start => exact .nil start
    | case2 start c cs first lexeme stop ih =>
      have lossless : first.tail ++ first.rest = cs := firstToken_lossless c cs
      have munches : Munches first.kind (c :: first.tail) first.rest :=
        munches_of_firstToken (by rw [lossless])
      have tiles := Tiles.cons munches ih
      rwa [List.cons_append, lossless] at tiles

/-- The tokens stand side by side from one place to another. -/
def Adjoin : Nat → List Token → Nat → Prop
  | start, [], stop => start = stop
  | start, token :: tokens, stop => token.span.start = start ∧ Adjoin token.span.stop tokens stop

theorem adjoin_tokensFrom (start : Nat) (text : List Char) :
    Adjoin start (tokensFrom start text) (start + utf8Length text) := by
  fun_induction tokensFrom start text with
  | case1 start => rfl
  | case2 start c cs first lexeme stop ih =>
    refine ⟨rfl, ?_⟩
    have whole : start + utf8Length (c :: cs) = stop + utf8Length first.rest := by
      have lossless : first.tail ++ first.rest = cs := firstToken_lossless c cs
      rw [← lossless, ← List.cons_append, utf8Length_append, ← Nat.add_assoc]
    rwa [whole]

/-! ### Cutting at the ends of tokens -/

theorem endOf_tokensFrom (text : List Char) : endOf (tokensFrom 0 text) = utf8Length text := by
  rw [endOf]
  cases ends : (tokensFrom 0 text).getLast? with
  | none => rw [eq_nil_of_tokensFrom (List.getLast?_eq_none_iff.1 ends)]; rfl
  | some last => rw [Option.map_some, Option.getD_some, stop_of_getLast? ends, Nat.zero_add]

/-- The piece of a text between the ends of two tokens has the tokens between them. -/
theorem tokenize_slice {text : String} {front own back : List Token}
    (cut : tokenize text = front ++ own ++ back) :
    own = (tokenize (Span.slice text ⟨endOf front, endOf (front ++ own)⟩)).map
      (Token.shift (endOf front)) := by
  obtain ⟨both, right, pieces, upTo, -⟩ := tokensFrom_split cut
  obtain ⟨left, piece, rfl, rfl, rfl⟩ := tokensFrom_split upTo
  rw [← upTo, endOf_tokensFrom, endOf_tokensFrom, utf8Length_append, slice_of_pieces pieces,
    tokenize, String.toList_ofList, ← tokensFrom_add]

/-- The tokens of a text are regions of it, none of them empty, that hold their lexemes; they follow each
    other without a gap from the beginning to the end of the text; they are the only row of pieces that
    are cut off by the rule of the longest match; and the piece of the text between any two ends of tokens
    has the same tokens by itself, at its own places. -/
theorem tokens_tile_text (text : String) :
    (∀ token ∈ tokenize text, token.span.start < token.span.stop ∧ token.span.IsIn text ∧
      token.span.slice text = token.lexeme) ∧
    Adjoin 0 (tokenize text) text.utf8ByteSize ∧
    (∀ tokens, Tiles 0 text.toList tokens ↔ tokens = tokenize text) ∧
    ∀ front own back, tokenize text = front ++ own ++ back →
      own = (tokenize (Span.slice text ⟨endOf front, endOf (front ++ own)⟩)).map
        (Token.shift (endOf front)) := by
  refine ⟨fun token mem => ?_, ?_, fun tokens => tiles_iff, fun front own back => tokenize_slice⟩
  · exact ⟨(bounds_of_mem_tokensFrom mem).2, isIn_of_mem_tokenize mem, slice_of_mem_tokenize mem⟩
  · have adjoin := adjoin_tokensFrom 0 text.toList
    rwa [Nat.zero_add, ← utf8ByteSize_eq] at adjoin

/-- In `3.x .5é` a point goes with the digits before it, or else with those behind it; the piece between
    the ends of the first and the fourth token is `x .5`. -/
theorem tokens_tile_text_of_points :
    tokenize "3.x .5é" = [⟨.float, ⟨0, 2⟩, "3."⟩] ++
        [⟨.name, ⟨2, 3⟩, "x"⟩, ⟨.blank, ⟨3, 4⟩, " "⟩, ⟨.float, ⟨4, 6⟩, ".5"⟩] ++
        [⟨.symbol, ⟨6, 8⟩, "é"⟩] ∧
      [⟨.name, ⟨2, 3⟩, "x"⟩, ⟨.blank, ⟨3, 4⟩, " "⟩, ⟨.float, ⟨4, 6⟩, ".5"⟩] =
        (tokenize (Span.slice "3.x .5é" ⟨2, 6⟩)).map (Token.shift 2) := by
  have tokens : tokenize "3.x .5é" = [⟨.float, ⟨0, 2⟩, "3."⟩] ++
      [⟨.name, ⟨2, 3⟩, "x"⟩, ⟨.blank, ⟨3, 4⟩, " "⟩, ⟨.float, ⟨4, 6⟩, ".5"⟩] ++
      [⟨.symbol, ⟨6, 8⟩, "é"⟩] := by
    decide +kernel
  exact ⟨tokens, (tokens_tile_text "3.x .5é").2.2.2 _ _ _ tokens⟩

end SymbolicCalculus
