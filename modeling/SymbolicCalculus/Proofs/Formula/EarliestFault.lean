/-
Module: SymbolicCalculus.Proofs.Formula.EarliestFault
Layer: Proofs
Purpose: A text that is no formula is rejected at the first token that no formula has at its place. The
  readers never look further than at the next token, so what they have answered does not depend on what
  stands behind it; and whenever they have not failed yet, an operand and some closing parentheses would
  make a formula of all that they have taken.
Main exports: ParseCause.refuses, Completable, Prompt, Prompt.andThen, Formula.verdict_prompt,
  Formula.Viable, Formula.parse_error_earliest
-/
import SymbolicCalculus.Proofs.Formula.Simulation
import SymbolicCalculus.Proofs.Token.Tiling

namespace SymbolicCalculus

open Grammar

/-- The cause is a token that stands at the wrong place, and not that the text ends too early. -/
def ParseCause.refuses : ParseCause → Bool
  | unexpectedToken _ _ | expectedEnd | numberOutOfRange | emptyParenthesis
  | unclosedParenthesis false => true
  | emptyExpression | unexpectedEnd | unclosedParenthesis true => false

/-! ### Tokens that a formula can begin with -/

/-- What ends a formula that has been cut off: an operand if there has to be one, and parentheses. -/
def remainder (operand : Bool) (count : Nat) : List Token :=
  (if operand then [⟨.name, default, "x"⟩] else []) ++
    List.replicate count ⟨.closeParen, default, ")"⟩

theorem remainder_succ (operand : Bool) (count : Nat) :
    remainder operand (count + 1) = remainder operand count ++ [⟨.closeParen, default, ")"⟩] := by
  rw [remainder, List.replicate_succ', ← List.append_assoc, remainder]

section Completion

variable {α : Type} [Numeral α] {c c' : Category} {tokens own : List Token}

/-- The tokens become a part of the category if something is added that can end a formula. -/
def Completable (α : Type) [Numeral α] (c : Category) (tokens : List Token) : Prop :=
  ∃ (operand : Bool) (count : Nat) (f : Formula α), Derives c (tokens ++ remainder operand count) f

/-- The tokens become a row of arguments if something is added that can end a formula. -/
def CompletableRow (α : Type) [Numeral α] (tokens : List Token) : Prop :=
  ∃ (operand : Bool) (count : Nat) (row : List (Formula α)),
    DerivesRow (tokens ++ remainder operand count) row

theorem Completable.of_derives {f : Formula α} (derives : Derives c tokens f) :
    Completable α c tokens :=
  ⟨false, 0, f, by simpa [remainder] using derives⟩

theorem Completable.widen (bound : c.looseness ≤ c'.looseness) (completable : Completable α c tokens) :
    Completable α c' tokens := by
  obtain ⟨operand, count, f, derives⟩ := completable
  exact ⟨operand, count, f, derives.widen bound⟩

/-- A part of any category can still begin. -/
theorem Completable.start (c : Category) : Completable α c [] :=
  ⟨true, 0, _, (Derives.symbol (α := α) rfl).widen (Nat.zero_le _)⟩

theorem Completable.minus {sign : Token} (is_minus : sign.kind = .minus)
    (completable : Completable α .unary tokens) : Completable α .unary (sign :: tokens) := by
  obtain ⟨operand, count, f, derives⟩ := completable
  exact ⟨operand, count, _, derives.minus is_minus⟩

theorem Completable.group {opening : Token} (opens : opening.kind = .openParen)
    (completable : Completable α .expr tokens) : Completable α .primary (opening :: tokens) := by
  obtain ⟨operand, count, f, derives⟩ := completable
  refine ⟨operand, count + 1, .paren f (opening.span.cover default), ?_⟩
  rw [remainder_succ, List.cons_append, ← List.append_assoc]
  exact derives.paren opens rfl

theorem Completable.binary {sign : Token} {op : BinaryOp} {l : Formula α}
    (known : sign.kind.binaryOp? = some op) (whole : op.precedence ≤ c.tightest)
    (first : Derives c own l) (completable : Completable α (.reached op.rightLevel) tokens) :
    Completable α (.madeBy op.precedence) (own ++ sign :: tokens) := by
  obtain ⟨operand, count, r, derives⟩ := completable
  refine ⟨operand, count, .binary op sign.span l r, ?_⟩
  rw [List.append_assoc, List.cons_append]
  exact first.binary known whole derives

theorem CompletableRow.last (completable : Completable α .expr tokens) : CompletableRow α tokens := by
  obtain ⟨operand, count, f, derives⟩ := completable
  exact ⟨operand, count, [f], .last derives⟩

theorem CompletableRow.more {comma : Token} {f : Formula α} (separates : comma.kind = .comma)
    (argument : Derives .expr own f) (completable : CompletableRow α tokens) :
    CompletableRow α (own ++ comma :: tokens) := by
  obtain ⟨operand, count, row, derives⟩ := completable
  refine ⟨operand, count, f :: row, ?_⟩
  rw [List.append_assoc, List.cons_append]
  exact .more separates argument derives

theorem CompletableRow.call {word opening : Token} (name : word.kind = .name)
    (opens : opening.kind = .openParen) (completable : CompletableRow α tokens) :
    Completable α .primary (word :: opening :: tokens) := by
  obtain ⟨operand, count, row, derives⟩ := completable
  refine ⟨operand, count + 1,
    .call word.lexeme word.span row (opening.span.cover default), ?_⟩
  rw [remainder_succ, List.cons_append, List.cons_append, ← List.append_assoc]
  exact .call name opens rfl derives

end Completion

/-! ### Readers that look at one token ahead -/

section Promptness

variable {β γ : Type} {read inner : List Token → Verdict β}
  {completable completable' : List Token → Prop} {token : Token} {tokens rest : List Token}

/-- The reader decides without looking further than at the next token. What it has read does not change
    with the tokens behind the next one; and if it fails, it blames the first token that makes the row
    hopeless, or it has found the end of a row that could be completed. -/
structure Prompt (read : List Token → Verdict β) (completable : List Token → Prop)
    (tokens : List Token) : Prop where
  settled : ∀ {value rest}, read tokens = .ok (value, rest) →
    ∃ taken, tokens = taken ++ rest ∧
      ∀ {others}, others.head? = rest.head? → read (taken ++ others) = .ok (value, others)
  refused : ∀ {fault}, read tokens = .error fault → fault.cause.refuses = true →
    ∃ before token after, tokens = before ++ token :: after ∧ token.span.stop = fault.span.stop ∧
      completable before ∧ ∀ more, read (before ++ token :: more) = .error fault
  cut : ∀ {fault}, read tokens = .error fault → fault.cause.refuses = false → completable tokens

theorem head?_append_congr {others : List Token} (taken : List Token)
    (same : others.head? = rest.head?) : (taken ++ others).head? = (taken ++ rest).head? := by
  rw [List.head?_append, List.head?_append, same]

theorem head?_behind (before : List Token) (token : Token) (after more : List Token) :
    (before ++ token :: more).head? = (before ++ token :: after).head? :=
  head?_append_congr before rfl

/-- Only the next token decides which reader is used. -/
theorem Prompt.congr (prompt : Prompt inner completable tokens)
    (same : ∀ {others}, others.head? = tokens.head? → read others = inner others) :
    Prompt read completable tokens where
  settled done := by
    obtain ⟨taken, rfl, keeps⟩ := prompt.settled (same rfl ▸ done)
    exact ⟨taken, rfl, fun next => (same (head?_append_congr taken next)).trans (keeps next)⟩
  refused failed blamed := by
    obtain ⟨before, token, after, rfl, place, begins, always⟩ :=
      prompt.refused (same rfl ▸ failed) blamed
    exact ⟨before, token, after, rfl, place, begins,
      fun more => (same (head?_behind before token after more)).trans (always more)⟩
  cut failed early := prompt.cut (same rfl ▸ failed) early

/-- A reader that takes no token looks at none. -/
theorem Prompt.pure (value : β) : Prompt (fun row => .ok (value, row)) completable tokens where
  settled done := by
    cases done
    exact ⟨[], rfl, fun _ => rfl⟩
  refused := nofun
  cut := nofun

/-- A reader that takes one token looks at no more than the next one. -/
theorem Prompt.takes {value : β}
    (same : ∀ {others}, others.head? = rest.head? → read (token :: others) = .ok (value, others)) :
    Prompt read completable (token :: rest) where
  settled done := by
    cases (same rfl).symm.trans done
    exact ⟨[token], rfl, same⟩
  refused failed := by
    cases (same rfl).symm.trans failed
  cut failed := by
    cases (same rfl).symm.trans failed

theorem Prompt.refusal {fault : Located ParseCause} (always : ∀ more, read (token :: more) = .error fault)
    (blamed : fault.cause.refuses = true) (place : token.span.stop = fault.span.stop)
    (begins : completable []) : Prompt read completable (token :: rest) where
  settled done := by
    rw [always] at done
    cases done
  refused failed _ := by
    cases (always rest).symm.trans failed
    exact ⟨[], token, rest, rfl, place, begins, always⟩
  cut failed early := by
    cases (always rest).symm.trans failed
    cases blamed.symm.trans early

theorem Prompt.ends {fault : Located ParseCause} (failed : read [] = .error fault)
    (early : fault.cause.refuses = false) (begins : completable []) : Prompt read completable [] where
  settled done := by
    rw [failed] at done
    cases done
  refused failed' blamed := by
    cases failed.symm.trans failed'
    cases early.symm.trans blamed
  cut _ _ := begins

/-- The reader takes a token and goes on as another one. -/
theorem Prompt.behind (prompt : Prompt inner completable tokens)
    (same : ∀ {others}, others.head? = tokens.head? → read (token :: others) = inner others)
    (longer : ∀ {row}, completable row → completable' (token :: row)) :
    Prompt read completable' (token :: tokens) where
  settled done := by
    obtain ⟨taken, rfl, keeps⟩ := prompt.settled (same rfl ▸ done)
    exact ⟨token :: taken, rfl, fun next => (same (head?_append_congr taken next)).trans (keeps next)⟩
  refused failed blamed := by
    obtain ⟨before, found, after, rfl, place, begins, always⟩ :=
      prompt.refused (same rfl ▸ failed) blamed
    exact ⟨token :: before, found, after, rfl, place, longer begins,
      fun more => (same (head?_behind before found after more)).trans (always more)⟩
  cut failed early := longer (prompt.cut (same rfl ▸ failed) early)

/-- A second reader goes on where the first one has stopped. -/
theorem Prompt.andThen {next : β → List Token → Verdict γ} (prompt : Prompt read completable tokens)
    (wider : ∀ {row}, completable row → completable' row)
    (goesOn : ∀ {value taken rest}, tokens = taken ++ rest → read tokens = .ok (value, rest) →
      Prompt (next value) (fun row => completable' (taken ++ row)) rest) :
    Prompt (fun row => (read row).andThen next) completable' tokens where
  settled done := by
    obtain ⟨⟨value, left⟩, first, second⟩ := bind_eq_ok_iff.1 done
    obtain ⟨taken, split_, keeps⟩ := prompt.settled first
    obtain ⟨taken', rfl, keeps'⟩ := (goesOn split_ first).settled second
    refine ⟨taken ++ taken', by rw [split_, List.append_assoc], fun next => ?_⟩
    rw [List.append_assoc, Verdict.andThen, keeps (head?_append_congr taken' next)]
    exact keeps' next
  refused failed blamed := by
    cases first : read tokens with
    | error fault =>
      rw [first] at failed
      cases failed
      obtain ⟨before, token, after, rfl, place, begins, always⟩ := prompt.refused first blamed
      refine ⟨before, token, after, rfl, place, wider begins, fun more => ?_⟩
      rw [always]
      rfl
    | ok done =>
      obtain ⟨value, left⟩ := done
      rw [first] at failed
      obtain ⟨taken, split_, keeps⟩ := prompt.settled first
      obtain ⟨before, token, after, rfl, place, begins, always⟩ :=
        (goesOn split_ first).refused failed blamed
      refine ⟨taken ++ before, token, after, by rw [split_, List.append_assoc], place, begins,
        fun more => ?_⟩
      rw [List.append_assoc, Verdict.andThen, keeps (head?_behind before token after more)]
      exact always more
  cut failed early := by
    cases first : read tokens with
    | error fault =>
      rw [first] at failed
      cases failed
      exact wider (prompt.cut first early)
    | ok done =>
      obtain ⟨value, left⟩ := done
      rw [first] at failed
      obtain ⟨taken, split_, -⟩ := prompt.settled first
      exact split_ ▸ (goesOn split_ first).cut failed early

theorem Prompt.map (make : β → γ) (prompt : Prompt read completable tokens) :
    Prompt (fun row => (read row).andThen fun value left => .ok (make value, left)) completable
      tokens :=
  prompt.andThen id fun _ _ => .pure _

end Promptness

namespace Formula

variable {α : Type}

/-! ### The readers of formulas -/

section Steps

variable {completable : List Token → Prop} (begins : completable []) (tokens : List Token)

include begins

theorem closeGroup_prompt (opening : Token) (inner : Formula α) :
    Prompt (closeGroup opening inner) completable tokens := by
  cases tokens with
  | nil => exact .ends rfl rfl begins
  | cons closing rest =>
    by_cases closes : closing.kind = .closeParen
    · exact .takes fun _ => if_pos closes
    · exact .refusal (fun _ => if_neg closes) rfl rfl begins

theorem ending_prompt (whole : Formula α) : Prompt (ending whole) completable tokens := by
  cases tokens with
  | nil =>
    refine (Prompt.pure whole).congr fun next => ?_
    rw [List.head?_eq_none_iff.1 next]
    rfl
  | cons next rest =>
    refine .refusal (fun _ => rfl) ?_ rfl begins
    dsimp only
    split <;> rfl

end Steps

variable [Numeral α] {stop : Nat}

/-- Whatever the level, the row is read without looking further than at the next token. -/
def ReadsPromptly (α : Type) [Numeral α] (stop : Nat) (tokens : List Token) : Prop :=
  ∀ level : Precedence,
    Prompt (verdict stop level : List Token → Verdict (Formula α))
      (Completable α (.reached level)) tokens

/-- What a reader has taken derives what it answers. -/
theorem derives_of_verdict {level : Precedence} {taken rest : List Token} {f : Formula α}
    (read : verdict stop level (taken ++ rest) = .ok (f, rest)) :
    Derives (.reached level) taken f ∧ Stops level rest := by
  obtain ⟨taken', same, derives, stops⟩ := reach_sound _ (verdict_eq_ok_iff.1 read)
  rw [List.append_cancel_right same]
  exact ⟨derives, stops⟩

theorem arguments_prompt {opening : Span} {tokens : List Token}
    (reads : ∀ shorter : List Token, shorter.length ≤ tokens.length → ReadsPromptly α stop shorter) :
    Prompt (argumentsVerdict stop opening : List Token → Verdict (List (Formula α) × Span))
      (CompletableRow α) tokens := by
  induction len : tokens.length using Nat.strongRecOn generalizing tokens with
  | ind n ih =>
    have steps : Prompt (fun row =>
        (verdict stop .any row : Verdict (Formula α)).andThen (afterArgument stop opening))
        (CompletableRow α) tokens := by
      refine (reads tokens (Nat.le_refl _) .any).andThen CompletableRow.last ?_
      rintro first taken rest rfl read
      have derives := (derives_of_verdict read).1
      have sofar : CompletableRow α (taken ++ []) := by
        rw [List.append_nil]
        exact CompletableRow.last (.of_derives derives)
      cases rest with
      | nil => exact .ends rfl rfl sofar
      | cons found rest =>
        by_cases closes : found.kind = .closeParen
        · exact .takes fun _ => if_pos closes
        by_cases separates : found.kind = .comma
        · have shorter : rest.length < n := by
            rw [← len, List.length_append, List.length_cons]
            omega
          have others := ih rest.length shorter (fun row bound => reads row (by omega)) rfl
          refine (others.map fun given => (first :: given.1, given.2)).behind (fun _ => ?_)
            (.more separates derives)
          rw [afterArgument, if_neg closes, if_pos separates]
        · have failed (more : List Token) : afterArgument stop opening first (found :: more) =
              .error (unexpected [.comma, .closeParen] found) := by
            rw [afterArgument, if_neg closes, if_neg separates]
          exact .refusal failed rfl rfl sofar
    exact steps.congr fun _ => verdict_arguments stop opening _

theorem operand_prompt {tokens : List Token}
    (reads : ∀ shorter : List Token, shorter.length < tokens.length → ReadsPromptly α stop shorter) :
    Prompt (operandVerdict stop : List Token → Verdict (Formula α)) (Completable α .unary)
      tokens := by
  have begins : Completable α .unary [] := .start .unary
  induction tokens using front_cases with
  | nil => exact .ends (verdict_operand_nil stop) rfl begins
  | minus sign rest minus =>
    exact ((reads rest (by simp) .neg).map (.neg · sign.span)).behind
      (fun _ => verdict_operand_minus minus) (.minus minus)
  | number literal rest number =>
    cases value : (Numeral.ofLiteral? literal.lexeme : Option α) with
    | none =>
      have failed (more : List Token) : (operandVerdict stop (literal :: more) : Verdict (Formula α)) =
          .error ⟨literal.span, .numberOutOfRange⟩ := by
        rw [verdict_operand_number number, value]
      exact .refusal failed rfl rfl begins
    | some value_ =>
      have done (others : List Token) : (operandVerdict stop (literal :: others) : Verdict (Formula α)) =
          .ok (.number value_ literal.span, others) := by
        rw [verdict_operand_number number, value]
      exact .takes fun _ => done _
  | emptyGroup opening closing rest opens closes =>
    have opened : Completable α .unary [opening] :=
      ((Completable.start .expr).group opens).widen (by decide)
    have failed (more : List Token) :
        (operandVerdict stop (opening :: closing :: more) : Verdict (Formula α)) =
          .error ⟨opening.span.cover closing.span, .emptyParenthesis⟩ :=
      verdict_operand_emptyGroup opens closes
    exact (Prompt.refusal failed rfl rfl opened).behind (fun _ => rfl) id
  | group opening inside opens filled =>
    have steps : Prompt (fun row =>
        (verdict stop .any row : Verdict (Formula α)).andThen (closeGroup opening))
        (Completable α .expr) inside := by
      refine (reads inside (by simp) .any).andThen id ?_
      rintro inner taken rest rfl read
      refine closeGroup_prompt ?_ rest opening inner
      rw [List.append_nil]
      exact .of_derives (derives_of_verdict read).1
    refine steps.behind (fun next => verdict_operand_group opens (next ▸ filled)) fun row => ?_
    exact (row.group opens).widen (by decide)
  | symbol word rest name alone =>
    exact .takes fun next => verdict_operand_symbol name (next ▸ alone)
  | emptyCall word opening closing rest name opens closes =>
    have done (others : List Token) :
        (operandVerdict stop (word :: opening :: closing :: others) : Verdict (Formula α)) =
          .ok (.call word.lexeme word.span [] (opening.span.cover closing.span), others) :=
      verdict_operand_emptyCall name opens closes
    have called : Prompt (fun row => (operandVerdict stop (word :: opening :: row) : Verdict (Formula α)))
        (fun _ => False) (closing :: rest) := .takes fun _ => done _
    exact (called.behind (fun _ => rfl) False.elim).behind (fun _ => rfl) id
  | call word opening inside name opens filled =>
    have given : Prompt
        (argumentsVerdict stop opening.span : List Token → Verdict (List (Formula α) × Span))
        (CompletableRow α) inside := by
      refine arguments_prompt fun row bound => reads row ?_
      simp only [List.length_cons]
      omega
    have called : Prompt (fun row => (operandVerdict stop (word :: row) : Verdict (Formula α)))
        (fun row => Completable α .unary (word :: row)) (opening :: inside) :=
      (given.map fun row =>
          .call word.lexeme word.span row.1 (opening.span.cover row.2)).behind
        (fun next => verdict_operand_call name opens (next ▸ filled))
        fun row => (row.call name opens).widen (by decide)
    exact called.behind (fun _ => rfl) id
  | other found rest other =>
    refine .refusal (fun _ => verdict_operand_other other) ?_ rfl begins
    dsimp only
    split <;> rfl

theorem climb_prompt {level : Precedence} {c : Category} {consumed tokens : List Token}
    {left : Formula α}
    (reads : ∀ shorter : List Token, shorter.length < tokens.length → ReadsPromptly α stop shorter)
    (derives : Derives c consumed left) (fits : Fits c tokens)
    (reached : c.looseness ≤ (Category.reached level).looseness) :
    Prompt (climbVerdict stop level left)
      (fun row => Completable α (.reached level) (consumed ++ row)) tokens := by
  -- each operator shortens the tokens, so the climb is followed by induction on their number
  induction len : tokens.length using Nat.strongRecOn generalizing tokens c consumed left with
  | ind n ih =>
    cases tokens with
    | nil =>
      refine (Prompt.pure left).congr fun next => ?_
      rw [List.head?_eq_none_iff.1 next]
      exact verdict_climb_nil stop level left
    | cons sign rest =>
      rcases loose_or_tight sign level with loose | ⟨op, known, tight⟩
      · refine (Prompt.pure left).congr fun next => ?_
        obtain ⟨others, rfl⟩ := List.head?_eq_some_iff.1 next
        exact verdict_climb_stops loose
      · have whole : op.precedence ≤ c.tightest := fits sign rfl op known
        have steps : Prompt (fun row => (verdict stop op.rightLevel row).andThen fun right =>
            climbVerdict stop level (.binary op sign.span left right))
            (fun row => Completable α (.reached level) (consumed ++ sign :: row)) rest := by
          refine (reads rest (by simp) op.rightLevel).andThen ?_ ?_
          · exact fun row => (row.binary known whole derives).widen (looseness_madeBy tight)
          · rintro right taken behind rfl read
            obtain ⟨second, stops⟩ := derives_of_verdict read
            have fewer : behind.length < n := by
              rw [← len, List.length_cons, List.length_append]
              omega
            have goesOn := ih behind.length fewer (fun row bound => reads row (by omega))
              (derives.binary known whole second) stops.fits_madeBy (looseness_madeBy tight) rfl
            simpa only [List.append_assoc, List.cons_append] using goesOn
        exact steps.behind (fun _ => verdict_climb_cons known tight) id

theorem verdict_prompt (tokens : List Token) : ReadsPromptly α stop tokens := by
  induction len : tokens.length using Nat.strongRecOn generalizing tokens with
  | ind n ih =>
    intro level
    have reads : ∀ shorter : List Token, shorter.length < tokens.length →
        ReadsPromptly α stop shorter := by
      intro shorter bound
      exact ih shorter.length (by rw [← len]; exact bound) shorter rfl
    have steps : Prompt (fun row =>
        (operandVerdict stop row : Verdict (Formula α)).andThen (climbVerdict stop level))
        (Completable α (.reached level)) tokens := by
      refine (operand_prompt reads).andThen (fun row => row.widen (by cases level <;> decide)) ?_
      rintro first taken rest rfl read
      have sound : ∀ shorter : List Token, shorter.length < (taken ++ rest).length →
          ReadsSoundly α stop shorter := fun shorter _ => reach_sound shorter
      obtain ⟨c, taken', -, same, derives, fits, unary⟩ :=
        operand_sound sound (mapError_eq_ok_iff.1 read)
      cases List.append_cancel_right same
      have fewer : rest.length < (taken ++ rest).length := Reading.shorter_of_verdict read
      exact climb_prompt (fun row bound => reads row (by omega)) derives fits
        (Nat.le_trans unary (by cases level <;> decide))
    exact steps.congr fun _ => verdict_eq stop level _

/-- A whole row is read without looking further than at the next token. -/
theorem whole_prompt (stop : Nat) (tokens : List Token) :
    Prompt (fun row => (verdict stop .any row : Verdict (Formula α)).andThen ending)
      (Completable α .expr) tokens := by
  refine (verdict_prompt tokens .any).andThen id ?_
  rintro whole taken rest rfl read
  refine ending_prompt ?_ rest whole
  rw [List.append_nil]
  exact .of_derives (derives_of_verdict read).1

/-- A row of tokens that is no formula is hopeless from the token on that is blamed, or it could be
    completed. -/
theorem ofTokens_error {tokens : List Token} {fault : Located ParseCause}
    (failed : (ofTokens stop tokens : Except _ (Formula α)) = .error fault) :
    (fault.cause.refuses = true →
      ∃ before token after, tokens = before ++ token :: after ∧
        token.span.stop = fault.span.stop ∧ Completable α .expr before ∧
        ∀ more, (ofTokens stop (before ++ token :: more) : Except _ (Formula α)) = .error fault) ∧
      (fault.cause.refuses = false → Completable α .expr tokens) := by
  cases tokens with
  | nil =>
    cases failed
    exact ⟨nofun, fun _ => .start .expr⟩
  | cons first others =>
    have prompt : Prompt _ (Completable α .expr) _ := whole_prompt stop (first :: others)
    have failed := (ofTokens_eq_error_iff (by simp)).1 failed
    refine ⟨fun blamed => ?_, prompt.cut failed⟩
    obtain ⟨before, token, after, split_, place, begins, always⟩ := prompt.refused failed blamed
    exact ⟨before, token, after, split_, place, begins,
      fun more => (ofTokens_eq_error_iff (by simp)).2 (always more)⟩

/-! ### Texts -/

/-- Some formula begins with the tokens. -/
def Viable (α : Type) [Numeral α] (tokens : List Token) : Prop :=
  ∃ (longer : String) (f : Formula α), tokens <+: significant (tokenize longer) ∧
    parse longer = .ok f

/-- The characters of a remainder, behind a blank. -/
def remainderText (operand : Bool) (count : Nat) : List Char :=
  ' ' :: ((if operand then ['x'] else []) ++ List.replicate count ')')

theorem words_parentheses (start count : Nat) :
    (significant (tokensFrom start (List.replicate count ')'))).map Token.word =
      List.replicate count (.closeParen, ")") := by
  induction count generalizing start with
  | zero =>
    rw [List.replicate_zero, tokensFrom_nil]
    rfl
  | succ count ih =>
    rw [List.replicate_succ, significant_sign start _ rfl, List.map_cons, ih, List.replicate_succ]
    rfl

/-- The lexer finds the remainder in its text. -/
theorem words_remainderText (start : Nat) (operand : Bool) (count : Nat) :
    (significant (tokensFrom start (remainderText operand count))).map Token.word =
      (remainder operand count).map Token.word := by
  rw [remainderText, significant_blank]
  cases operand with
  | false => simp [words_parentheses, remainder, Token.word]
  | true =>
    have apart : Apart (List.replicate count ')') := by
      cases count with
      | zero => exact apart_nil
      | succ count => exact apart_cons _ (by decide) (by decide)
    have identifier : Token.IsIdentifier "x" :=
      (Token.isIdentifier_iff "x").2 ⟨'x', [], rfl, rfl, by simp⟩
    have text : (if true = true then ['x'] else []) ++ List.replicate count ')' =
        "x".toList ++ List.replicate count ')' := rfl
    rw [text, tokensFrom_identifier _ identifier apart, significant_tokenAt _ _ _ (by decide),
      List.map_cons, words_parentheses]
    simp [remainder, Token.word, tokenAt]

/-- What can be completed in front of a place in a text is the beginning of some formula. -/
theorem viable_of_completable {text : String} {front back : List Token}
    (cut : tokenize text = front ++ back)
    (completable : Completable α .expr (significant front)) : Viable α (significant front) := by
  obtain ⟨operand, count, f, derives⟩ := completable
  obtain ⟨piece, -, -, own, -⟩ := tokensFrom_split cut
  have tokens : significant (tokenize (String.ofList (piece ++ remainderText operand count))) =
      significant front ++ significant (tokensFrom (0 + utf8Length piece)
        (remainderText operand count)) := by
    rw [tokenize, String.toList_ofList, remainderText, significant_before_blank, own]
  have alike : List.Forall₂ (Token.Alike fun _ _ => True)
      (significant front ++ remainder operand count)
      (significant (tokenize (String.ofList (piece ++ remainderText operand count)))) := by
    refine alike_of_words ?_ fun _ _ => trivial
    rw [tokens, List.map_append, List.map_append, words_remainderText]
  have both := ofTokens_alike (α := α) 0
    (utf8Length (String.ofList (piece ++ remainderText operand count)).toList)
    (fun _ _ _ _ _ _ => trivial) alike
  rw [(ofTokens_eq_ok_iff_derives 0 _ f).2 derives, ← parse_eq_ofTokens] at both
  generalize parsed : (parse (String.ofList (piece ++ remainderText operand count)) :
    Except _ (Formula α)) = read at both
  cases both with
  | @done _ g _ => exact ⟨_, g, tokens ▸ List.prefix_append _ _, parsed⟩

/-- A row that begins with the same words as a hopeless one is no formula either. -/
theorem ofTokens_ne_ok_of_words {stop' : Nat} {before row : List Token} {fault : Located ParseCause}
    (hopeless : ∀ more, (ofTokens stop (before ++ more) : Except _ (Formula α)) = .error fault)
    (begins : before.map Token.word <+: row.map Token.word) (f : Formula α) :
    ofTokens stop' row ≠ .ok f := by
  obtain ⟨others, same⟩ := begins
  obtain ⟨front, back, rfl, same', -⟩ := List.map_eq_append_iff.1 same.symm
  intro read
  have alike : List.Forall₂ (Token.Alike fun _ _ => True) (front ++ back) (before ++ back) :=
    alike_of_words (by rw [List.map_append, List.map_append, same']) fun _ _ => trivial
  have both := ofTokens_alike (α := α) stop' stop (fun _ _ _ _ _ _ => trivial) alike
  rw [read, hopeless] at both
  cases both

/-- A text that is no formula is rejected at the earliest token. If the fault is a token at the wrong
    place, let that be the token at which the region of the fault ends: some formula begins with the tokens
    before it, and none with the words up to it. If the fault is that the text ends too early, some formula
    begins with all its tokens. -/
theorem parse_error_earliest {text : String} {fault : Located ParseCause}
    (failed : (parse text : Except _ (Formula α)) = .error fault) :
    (fault.cause.refuses = true →
      ∃ before token after, significant (tokenize text) = before ++ token :: after ∧
        token.span.stop = fault.span.stop ∧ Viable α before ∧
        ∀ (stop : Nat) (row : List Token),
          (before ++ [token]).map Token.word <+: row.map Token.word →
          ∀ f : Formula α, ofTokens stop row ≠ .ok f) ∧
      (fault.cause.refuses = false → Viable α (significant (tokenize text))) := by
  obtain ⟨refused, cut⟩ := ofTokens_error failed
  constructor
  · intro blamed
    obtain ⟨before, token, after, tokens, place, begins, hopeless⟩ := refused blamed
    obtain ⟨front, back, pieces, rfl, -⟩ := List.filter_eq_append_iff.1 tokens
    refine ⟨_, token, after, tokens, place, viable_of_completable pieces begins, ?_⟩
    intro stop row same
    have hopeless_ (more : List Token) : (ofTokens (utf8Length text.toList)
        (significant front ++ [token] ++ more) : Except _ (Formula α)) = .error fault := by
      rw [List.append_assoc, List.singleton_append]
      exact hopeless more
    exact ofTokens_ne_ok_of_words hopeless_ same
  · intro early
    have all : tokenize text = tokenize text ++ [] := (List.append_nil _).symm
    exact viable_of_completable all (cut early)

/-- In `x*)` the closing parenthesis is at fault: a formula can begin with `x*`, but not with more. -/
theorem parse_error_earliest_closing :
    (parse "x*)" : Except _ (Formula Double)) = .error ⟨⟨2, 3⟩, .unclosedParenthesis false⟩ ∧
      ∃ before token after, significant (tokenize "x*)") = before ++ token :: after ∧
        token.span.stop = 3 ∧ Viable Double before ∧
        ∀ (stop : Nat) (row : List Token),
          (before ++ [token]).map Token.word <+: row.map Token.word →
          ∀ f : Formula Double, ofTokens stop row ≠ .ok f := by
  have tokens : significant (tokenize "x*)") =
      [⟨.name, ⟨0, 1⟩, "x"⟩, ⟨.star, ⟨1, 2⟩, "*"⟩, ⟨.closeParen, ⟨2, 3⟩, ")"⟩] := by
    decide +kernel
  have star : (⟨.star, ⟨1, 2⟩, "*"⟩ : Token).kind.binaryOp? = some .mul := rfl
  have right (stop : Nat) (level : Precedence) :
      (verdict stop level [⟨.closeParen, ⟨2, 3⟩, ")"⟩] : Verdict (Formula Double)) =
        .error ⟨⟨2, 3⟩, .unclosedParenthesis false⟩ := by
    rw [verdict_eq, verdict_operand_other (by decide)]
    rfl
  have failed : (parse "x*)" : Except _ (Formula Double)) =
      .error ⟨⟨2, 3⟩, .unclosedParenthesis false⟩ := by
    rw [parse_eq_ofTokens, tokens, ofTokens_eq_error_iff (by simp), verdict_eq,
      verdict_operand_symbol rfl (by simp)]
    change (climbVerdict _ _ _ _ : Verdict (Formula Double)).andThen ending = _
    rw [verdict_climb_cons star (by decide), right]
    rfl
  exact ⟨failed, (parse_error_earliest failed).1 rfl⟩

end Formula

end SymbolicCalculus
