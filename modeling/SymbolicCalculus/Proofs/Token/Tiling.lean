/-
Module: SymbolicCalculus.Proofs.Token.Tiling
Layer: Proofs
Purpose: The tokens of a piece of a text. The tokens stand side by side, each over its own characters, so
  that a text may be cut at the ends of tokens: each piece, taken for itself, has the tokens that it had
  in the text, moved to its beginning. Nothing is lost by leaving out blanks, since the significant
  tokens between two others are those of one piece.
Main exports: Token.shift, tokensFrom_add, tokensFrom_split, pairwise_tokensFrom,
  slice_of_mem_tokenize, TokenKind.mark?, lexeme_of_mark?, significant_split, exists_piece
-/
import Mathlib
import SymbolicCalculus.Proofs.Text.Regions
import SymbolicCalculus.Proofs.Token.Lexing

namespace SymbolicCalculus

/-! ### Moving a text -/

/-- The same token in a text with `offset` more bytes before it. -/
def Token.shift (offset : Nat) (token : Token) : Token :=
  ⟨token.kind, token.span.shift offset, token.lexeme⟩

/-- A text that begins later has the same tokens later. -/
theorem tokensFrom_add (start offset : Nat) (text : List Char) :
    tokensFrom (start + offset) text = (tokensFrom start text).map (Token.shift offset) := by
  fun_induction tokensFrom start text with
  | case1 start => rw [tokensFrom, List.map_nil]
  | case2 start c cs first lexeme stop ih =>
    have later : start + offset + utf8Length lexeme = stop + offset := Nat.add_right_comm ..
    rw [tokensFrom, List.map_cons]
    change _ :: tokensFrom (start + offset + utf8Length lexeme) first.rest = _
    rw [later, ih]
    rfl

theorem significant_shift (offset : Nat) (tokens : List Token) :
    significant (tokens.map (Token.shift offset)) =
      (significant tokens).map (Token.shift offset) := by
  rw [significant, List.filter_map]
  rfl

/-! ### Cutting a text -/

theorem takeWhile_of_append {goesOn : Char → Bool} {word rest after : List Char}
    (takes : (word ++ rest ++ after).takeWhile goesOn = word) :
    (word ++ rest).takeWhile goesOn = word ∧ (word ++ rest).dropWhile goesOn = rest := by
  have all : ∀ c ∈ word, goesOn c = true := by
    rw [← takes]
    exact fun c mem => List.mem_takeWhile_imp mem
  rw [List.append_assoc, List.takeWhile_append_of_pos all] at takes
  rw [List.takeWhile_append_of_pos all, List.dropWhile_append_of_pos all]
  cases rest with
  | nil => simp
  | cons c cs =>
    have stops : ¬ goesOn c = true := fun goes => by simp [goes] at takes
    simp [stops]

/-- The first token is not longer for what stands behind the place where the text is cut. -/
theorem firstToken_of_append {c : Char} {kind : TokenKind} {tail rest after : List Char}
    (first : firstToken c (tail ++ rest ++ after) = ⟨kind, tail, rest ++ after⟩) :
    firstToken c (tail ++ rest) = ⟨kind, tail, rest⟩ := by
  have run {goesOn : Char → Bool} {kind' : TokenKind}
      (first : FirstToken.run kind' goesOn (tail ++ rest ++ after) = ⟨kind, tail, rest ++ after⟩) :
      FirstToken.run kind' goesOn (tail ++ rest) = ⟨kind, tail, rest⟩ := by
    obtain ⟨rfl, takes, -⟩ := FirstToken.mk.inj first
    obtain ⟨takes, leaves⟩ := takeWhile_of_append takes
    rw [FirstToken.run, takes, leaves]
  unfold firstToken at first ⊢
  split at first
  · next gap => rw [if_pos gap, run first]
  next noGap =>
  rw [if_neg noGap]
  split at first
  · next starts => rw [if_pos starts, run first]
  next noName =>
  rw [if_neg noName]
  split at first
  · next digit =>
    rw [if_pos digit]
    split at first
    · next behind found =>
      obtain ⟨rfl, same, leaves⟩ := FirstToken.mk.inj first
      generalize wholeDigits : (tail ++ rest ++ after).takeWhile Char.isDigit = whole at same
      generalize fractionDigits : behind.takeWhile Char.isDigit = fraction at same
      subst same
      have behind_eq : fraction ++ rest ++ after = behind := by
        rw [List.append_assoc, ← fractionDigits, ← leaves, List.takeWhile_append_dropWhile]
      obtain ⟨takesFraction, leavesRest⟩ := takeWhile_of_append (behind_eq ▸ fractionDigits)
      have beforePoint :
          (whole ++ ('.' :: fraction ++ rest) ++ after).takeWhile Char.isDigit = whole := by
        simpa using wholeDigits
      obtain ⟨takesWhole, leavesPoint⟩ := takeWhile_of_append beforePoint
      rw [List.append_assoc, List.cons_append, ← List.cons_append, leavesPoint, takesWhole]
      simp only [List.cons_append, takesFraction, leavesRest]
    · next noPoint =>
      obtain ⟨rfl, takes, leaves⟩ := FirstToken.mk.inj first
      obtain ⟨takes, leavesRest⟩ := takeWhile_of_append takes
      rw [leavesRest, takes]
      split
      · exact absurd leaves (noPoint _)
      · rfl
  next noDigit =>
  rw [if_neg noDigit]
  split at first
  · next point =>
    have takes : (tail ++ rest ++ after).takeWhile Char.isDigit = tail :=
      congrArg FirstToken.tail first
    rw [Bool.and_eq_true, takes] at point
    rw [(takeWhile_of_append takes).1, if_pos (Bool.and_eq_true _ _ ▸ point), run first]
  · next noPoint =>
    obtain ⟨rfl, rfl, -⟩ := FirstToken.mk.inj first
    refine if_neg fun point => noPoint ?_
    rw [Bool.and_eq_true, Bool.not_eq_true'] at point ⊢
    refine ⟨point.1, ?_⟩
    -- the digit behind the point is there before the cut as well
    cases rest with
    | nil => simp at point
    | cons d ds =>
      by_cases digit : d.isDigit = true
      · simp [digit]
      · simp [digit] at point

theorem tokensFrom_nil (start : Nat) : tokensFrom start [] = [] := by
  rw [tokensFrom]

/-- A text without tokens is empty. -/
theorem eq_nil_of_tokensFrom {start : Nat} {text : List Char} (none_ : tokensFrom start text = []) :
    text = [] := by
  cases text with
  | nil => rfl
  | cons c cs =>
    rw [tokensFrom] at none_
    exact absurd none_ (List.cons_ne_nil _ _)

/-- A text that is one token is the lexeme of it. -/
theorem eq_tokenAt_of_tokensFrom {start : Nat} {text : List Char} {token : Token}
    (single : tokensFrom start text = [token]) : token = tokenAt start token.kind text := by
  cases text with
  | nil => simp [tokensFrom_nil] at single
  | cons c cs =>
    rw [tokensFrom] at single
    obtain ⟨rfl, others⟩ := List.cons.inj single
    have whole : (firstToken c cs).tail = cs := by
      have lossless := firstToken_lossless c cs
      rw [eq_nil_of_tokensFrom others, List.append_nil] at lossless
      exact lossless
    simp only [tokenAt, whole]

/-- A text that is cut between two tokens has the same tokens on either side. By induction on the tokens
    before the cut. -/
theorem tokensFrom_split {start : Nat} {text : List Char} {front back : List Token}
    (cut : tokensFrom start text = front ++ back) :
    ∃ piece rest, text = piece ++ rest ∧ tokensFrom start piece = front ∧
      tokensFrom (start + utf8Length piece) rest = back := by
  induction front generalizing start text with
  | nil => exact ⟨[], text, rfl, tokensFrom_nil start, cut⟩
  | cons token front ih =>
    cases text with
    | nil => simp [tokensFrom_nil] at cut
    | cons c cs =>
      rw [tokensFrom] at cut
      obtain ⟨rfl, others⟩ := List.cons.inj cut
      obtain ⟨piece, rest, pieces, before, behind⟩ := ih others
      have whole : (firstToken c cs).tail ++ piece ++ rest = cs := by
        rw [List.append_assoc, ← pieces, firstToken_lossless]
      have first : firstToken c ((firstToken c cs).tail ++ piece) =
          ⟨(firstToken c cs).kind, (firstToken c cs).tail, piece⟩ := by
        have uncut : firstToken c ((firstToken c cs).tail ++ piece ++ rest) =
            ⟨(firstToken c cs).kind, (firstToken c cs).tail, piece ++ rest⟩ := by
          rw [whole, ← pieces]
        exact firstToken_of_append uncut
      refine ⟨c :: (firstToken c cs).tail ++ piece, rest, ?_, ?_, ?_⟩
      · rw [List.cons_append, List.cons_append, whole]
      · rw [tokensFrom_piece start first, tokenAt, before]
      · rw [utf8Length_append, ← Nat.add_assoc]
        exact behind

/-! ### Regions of tokens -/

/-- One region ends before the other begins. -/
def Span.Precedes (first second : Span) : Prop := first.stop ≤ second.start

theorem bounds_of_mem_tokensFrom {start : Nat} {text : List Char} {token : Token}
    (mem : token ∈ tokensFrom start text) :
    start ≤ token.span.start ∧ token.span.start < token.span.stop := by
  fun_induction tokensFrom start text with
  | case1 => cases mem
  | case2 start c cs first lexeme stop ih =>
    have longer : start < stop := by
      have positive := c.utf8Size_pos
      simp only [stop, lexeme, utf8Length]
      omega
    rcases List.mem_cons.1 mem with rfl | later
    · exact ⟨Nat.le_refl _, longer⟩
    · obtain ⟨behind, filled⟩ := ih later
      exact ⟨Nat.le_trans (Nat.le_of_lt longer) behind, filled⟩

/-- The tokens of a text stand in it one after the other. -/
theorem pairwise_tokensFrom (start : Nat) (text : List Char) :
    (tokensFrom start text).Pairwise fun first second => first.span.Precedes second.span := by
  fun_induction tokensFrom start text with
  | case1 => exact .nil
  | case2 start c cs first lexeme stop ih =>
    exact .cons (fun token mem => (bounds_of_mem_tokensFrom mem).1) ih

/-- The first token begins where the text does. -/
theorem start_of_head? {start : Nat} {text : List Char} {first : Token}
    (begins : (tokensFrom start text).head? = some first) : first.span.start = start := by
  cases text with
  | nil => simp [tokensFrom_nil] at begins
  | cons c cs =>
    rw [tokensFrom] at begins
    cases begins
    rfl

/-- The last token ends where the text does. -/
theorem stop_of_getLast? {start : Nat} {text : List Char} {last : Token}
    (ends : (tokensFrom start text).getLast? = some last) :
    last.span.stop = start + utf8Length text := by
  obtain ⟨front, tokens⟩ := List.getLast?_eq_some_iff.1 ends
  obtain ⟨piece, rest, rfl, -, single⟩ := tokensFrom_split tokens
  rw [eq_tokenAt_of_tokensFrom single, utf8Length_append, ← Nat.add_assoc]
  rfl

/-- Each token is a piece of the text. -/
theorem exists_pieces_of_mem_tokenize {text : String} {token : Token}
    (mem : token ∈ tokenize text) :
    ∃ left piece right, text.toList = left ++ piece ++ right ∧
      token = tokenAt (utf8Length left) token.kind piece := by
  obtain ⟨front, back, tokens⟩ := List.append_of_mem mem
  obtain ⟨left, rest, pieces, -, behind⟩ := tokensFrom_split tokens
  rw [Nat.zero_add, ← List.singleton_append] at behind
  obtain ⟨piece, right, rfl, single, -⟩ := tokensFrom_split behind
  exact ⟨left, piece, right, by rw [pieces, List.append_assoc], eq_tokenAt_of_tokensFrom single⟩

/-- Each token stands where its lexeme does. -/
theorem slice_of_mem_tokenize {text : String} {token : Token} (mem : token ∈ tokenize text) :
    Span.slice text token.span = token.lexeme := by
  obtain ⟨left, piece, right, pieces, is_piece⟩ := exists_pieces_of_mem_tokenize mem
  rw [is_piece]
  exact slice_of_pieces pieces

theorem isIn_of_mem_tokenize {text : String} {token : Token} (mem : token ∈ tokenize text) :
    token.span.IsIn text := by
  obtain ⟨left, piece, right, pieces, is_piece⟩ := exists_pieces_of_mem_tokenize mem
  rw [is_piece]
  exact Span.isIn_of_pieces pieces

/-! ### Signs -/

/-- The text of all tokens of the kind, if it is always the same. -/
def TokenKind.mark? : TokenKind → Option String
  | plus => some "+"
  | minus => some "-"
  | star => some "*"
  | slash => some "/"
  | caret => some "^"
  | comma => some ","
  | openParen => some "("
  | closeParen => some ")"
  | _ => none

theorem TokenKind.mark?_of_binaryOp? {kind : TokenKind} {op : BinaryOp}
    (known : kind.binaryOp? = some op) : kind.mark? = some op.symbol := by
  cases kind <;> cases known <;> rfl

theorem TokenKind.mark?_of_ofChar? {c : Char} {kind : TokenKind} (known : ofChar? c = some kind) :
    kind.mark? = some (String.ofList [c]) := by
  unfold ofChar? at known
  split at known <;> cases known <;> rfl

/-- A sign is cut off alone, as no other branch of the lexer makes tokens of its kind. -/
theorem firstToken_of_mark? {c : Char} {cs : List Char} {mark : String}
    (known : (firstToken c cs).kind.mark? = some mark) :
    (firstToken c cs).tail = [] ∧ mark = String.ofList [c] := by
  unfold firstToken at known ⊢
  split at known
  · cases known
  next noGap =>
  split at known
  · cases known
  next noName =>
  split at known
  · split at known <;> cases known
  next noDigit =>
  split at known
  · cases known
  next noPoint =>
  rw [if_neg noGap, if_neg noName, if_neg noDigit, if_neg noPoint]
  change ((TokenKind.ofChar? c).getD .symbol).mark? = some mark at known
  cases sign : TokenKind.ofChar? c with
  | none =>
    rw [sign] at known
    cases known
  | some kind =>
    rw [sign, Option.getD_some, TokenKind.mark?_of_ofChar? sign] at known
    exact ⟨rfl, (Option.some.inj known).symm⟩

/-- A token of a kind with one text has that text. -/
theorem lexeme_of_mark? {start : Nat} {text : List Char} {token : Token} {mark : String}
    (mem : token ∈ tokensFrom start text) (known : token.kind.mark? = some mark) :
    token.lexeme = mark := by
  fun_induction tokensFrom start text with
  | case1 => cases mem
  | case2 start c cs first lexeme stop ih =>
    rcases List.mem_cons.1 mem with rfl | later
    · obtain ⟨alone, rfl⟩ := firstToken_of_mark? known
      change String.ofList (c :: first.tail) = _
      rw [alone]
    · exact ih later

/-- The region of a token is as long as its lexeme. -/
theorem stop_of_mem_tokensFrom {start : Nat} {text : List Char} {token : Token}
    (mem : token ∈ tokensFrom start text) :
    token.span.stop = token.span.start + utf8Length token.lexeme.toList := by
  fun_induction tokensFrom start text with
  | case1 => cases mem
  | case2 start c cs first lexeme stop ih =>
    rcases List.mem_cons.1 mem with rfl | later
    · simp only [String.toList_ofList, stop]
    · exact ih later

/-- The region of a sign is one byte. -/
theorem stop_of_mark? {start : Nat} {text : List Char} {token : Token} {mark : String}
    (mem : token ∈ tokensFrom start text) (known : token.kind.mark? = some mark) :
    token.span.stop = token.span.start + 1 := by
  have one : utf8Length mark.toList = 1 := by
    revert known
    cases token.kind <;> intro known <;> cases known <;> decide
  rw [stop_of_mem_tokensFrom mem, lexeme_of_mark? mem known, one]

/-! ### Significant tokens -/

theorem mem_of_mem_significant {token : Token} {tokens : List Token}
    (mem : token ∈ significant tokens) : token ∈ tokens :=
  (List.mem_filter.1 mem).1

/-- The significant tokens from one to another are those of a row of tokens that begins and ends with
    them. -/
theorem significant_split {tokens before own after : List Token} {first last : Token}
    (cut : significant tokens = before ++ own ++ after) (begins : own.head? = some first)
    (ends : own.getLast? = some last) :
    ∃ front row back, tokens = front ++ row ++ back ∧ significant row = own ∧
      row.head? = some first ∧ row.getLast? = some last := by
  obtain ⟨others, startsWith⟩ := List.head?_eq_some_iff.1 begins
  obtain ⟨init, rfl⟩ := List.getLast?_eq_some_iff.1 ends
  obtain ⟨left, back, rfl, cut, -⟩ := List.filter_eq_append_iff.1 cut
  obtain ⟨front, middle, rfl, -, cut⟩ := List.filter_eq_append_iff.1 cut
  obtain ⟨head, tail, rfl, initial, cut⟩ := List.filter_eq_append_iff.1 cut
  obtain ⟨blanks, behind, rfl, invisible, visible, -⟩ := List.filter_eq_cons_iff.1 cut
  -- up to the last token, and then from the first one on
  have upToLast : (head ++ (blanks ++ [last])).filter (fun token => token.kind != .blank) =
      first :: others := by
    simp only [List.filter_append, initial, List.filter_eq_nil_iff.2 invisible, List.filter_cons,
      visible, if_true, List.filter_nil, List.nil_append, startsWith]
  obtain ⟨gap, row, pieces, invisible, visible', rest⟩ := List.filter_eq_cons_iff.1 upToLast
  refine ⟨front ++ gap, first :: row, behind ++ back, ?_, ?_, rfl, ?_⟩
  · have whole : head ++ (blanks ++ last :: behind) = gap ++ first :: row ++ behind := by
      rw [← pieces]
      simp
    rw [whole]
    simp
  · rw [startsWith, ← rest]
    exact List.filter_cons_of_pos visible'
  · rw [← List.getLast?_append_cons gap first row, ← pieces, ← List.append_assoc,
      List.getLast?_append_cons]
    rfl

/-- The significant tokens from one to another are those of a piece of the text, which reaches from the
    beginning of the first to the end of the last. -/
theorem exists_piece {text : String} {before own after : List Token} {first last : Token}
    (cut : significant (tokenize text) = before ++ own ++ after) (begins : own.head? = some first)
    (ends : own.getLast? = some last) :
    ∃ left piece right, text.toList = left ++ piece ++ right ∧
      first.span.start = utf8Length left ∧
      last.span.stop = utf8Length left + utf8Length piece ∧
      own = (significant (tokensFrom 0 piece)).map (Token.shift (utf8Length left)) := by
  obtain ⟨front, row, back, tokens, own_eq, begins, ends⟩ := significant_split cut begins ends
  rw [tokenize, List.append_assoc] at tokens
  obtain ⟨left, rest, pieces, -, behind⟩ := tokensFrom_split tokens
  rw [Nat.zero_add] at behind
  obtain ⟨piece, right, rfl, row_eq, -⟩ := tokensFrom_split behind
  refine ⟨left, piece, right, by rw [pieces, List.append_assoc], start_of_head? (row_eq ▸ begins),
    stop_of_getLast? (row_eq ▸ ends), ?_⟩
  rw [← significant_shift, ← tokensFrom_add, Nat.zero_add, row_eq, own_eq]

/-! ### Going on behind a blank -/

theorem takeWhile_before {goesOn : Char → Bool} {c : Char} (stops : goesOn c = false)
    (cs rest : List Char) :
    (cs ++ c :: rest).takeWhile goesOn = cs.takeWhile goesOn ∧
      (cs ++ c :: rest).dropWhile goesOn = cs.dropWhile goesOn ++ c :: rest := by
  induction cs with
  | nil => simp [stops]
  | cons d ds ih =>
    by_cases goes : goesOn d = true
    · simp [goes, ih]
    · simp [goes]

/-- A word is not longer for a blank behind it. -/
theorem firstToken_before_blank {c : Char} (noGap : ¬ isGap c = true) (cs rest : List Char) :
    firstToken c (cs ++ ' ' :: rest) =
      ⟨(firstToken c cs).kind, (firstToken c cs).tail, (firstToken c cs).rest ++ ' ' :: rest⟩ := by
  have names := takeWhile_before (show isNameChar ' ' = false by decide) cs rest
  have digits := takeWhile_before (show Char.isDigit ' ' = false by decide) cs rest
  unfold firstToken
  rw [if_neg noGap, if_neg noGap]
  split
  · simp [FirstToken.run, names]
  split
  · simp only [digits]
    cases left : cs.dropWhile Char.isDigit with
    | nil => rfl
    | cons d ds =>
      by_cases point : d = '.'
      · subst point
        have behind := takeWhile_before (show Char.isDigit ' ' = false by decide) ds rest
        simp only [List.cons_append, behind]
      · simp only [List.cons_append]
        split
        · next found => exact absurd (List.cons.inj found).1 point
        · split
          · next found => exact absurd (List.cons.inj found).1 point
          · rfl
  · rw [digits.1]
    split
    · simp [FirstToken.run, digits]
    · rfl

/-- The significant tokens of a text stay the same if it goes on behind a blank. By induction on the
    length of the text, a blank or a word at a time. -/
theorem significant_before_blank (start : Nat) (cs rest : List Char) :
    significant (tokensFrom start (cs ++ ' ' :: rest)) =
      significant (tokensFrom start cs) ++
        significant (tokensFrom (start + utf8Length cs) (' ' :: rest)) := by
  induction len : cs.length using Nat.strongRecOn generalizing start cs with
  | ind n ih =>
    cases cs with
    | nil =>
      rw [tokensFrom_nil]
      rfl
    | cons c cs =>
      rw [List.length_cons] at len
      by_cases gap : isGap c = true
      · rw [List.cons_append, significant_gap _ _ gap, significant_gap _ _ gap,
          ih cs.length (by omega) _ cs rfl, utf8Length, Nat.add_assoc]
      · have shorter := firstToken_rest_length c cs
        have whole := congrArg utf8Length (firstToken_lossless c cs)
        rw [List.length_cons] at shorter
        rw [utf8Length_append] at whole
        have place : start + utf8Length (c :: (firstToken c cs).tail) +
            utf8Length (firstToken c cs).rest = start + utf8Length (c :: cs) := by
          simp only [utf8Length]
          omega
        rw [List.cons_append, tokensFrom, tokensFrom, firstToken_before_blank gap]
        simp only [significant, List.filter_cons] at ih ⊢
        rw [ih (firstToken c cs).rest.length (by omega) _ _ rfl, place]
        split <;> rfl

end SymbolicCalculus
