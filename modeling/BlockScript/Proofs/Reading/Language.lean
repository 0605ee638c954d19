import BlockScript.Proofs.Reading.Soundness

namespace BlockScript.Grammar

/-!
# The programs that are read without an error

What stands before the first end token is read without a rejection exactly when
it is a phrase, and then as that phrase.  Programs read without any error are
therefore exactly those that the checked grammar derives.
-/

/-- The tokens before the first end token. -/
def beforeEnd
    (tokens : List Token) :
    List Token :=
  tokens.takeWhile fun token => decide (token.kind ≠ .endOfInput)

/-- Tokens of which none is an end token stand before the first one. -/
theorem beforeEnd_append_inner
    {tokens : List Token}
    (inner : ∀ token ∈ tokens, token.kind ≠ .endOfInput)
    (rest : List Token) :
    beforeEnd (tokens ++ rest) = tokens ++ beforeEnd rest :=
  List.takeWhile_append_of_pos (by simpa using inner)

/-- An end token and what follows it are cut off behind tokens of which none is one. -/
theorem beforeEnd_append
    {tokens rest : List Token}
    {ending : Token}
    (inner : ∀ token ∈ tokens, token.kind ≠ .endOfInput)
    (ends : ending.kind = .endOfInput) :
    beforeEnd (tokens ++ ending :: rest) = tokens := by
  rw [beforeEnd_append_inner inner]
  simp [beforeEnd, ends]

/-- A list with an end token is cut at its first one. -/
theorem exists_append_beforeEnd_of_mem
    {tokens : List Token}
    (hasEnd : ∃ token ∈ tokens, token.kind = .endOfInput) :
    ∃ ending rest, tokens = beforeEnd tokens ++ ending :: rest ∧ ending.kind = .endOfInput := by
  induction tokens with
  | nil =>
      obtain ⟨token, found, -⟩ := hasEnd
      cases found
  | cons token tokens inductionHypothesis =>
      by_cases isEnd : token.kind = .endOfInput
      · exact ⟨token, tokens, by simp [beforeEnd, isEnd], isEnd⟩
      · obtain ⟨ending, rest, same, isEnding⟩ :=
          inductionHypothesis (by simpa [isEnd] using hasEnd)
        have goesOn : beforeEnd (token :: tokens) = token :: beforeEnd tokens := by
          simp [beforeEnd, isEnd]
        exact ⟨ending, rest, by rw [goesOn, List.cons_append, ← same], isEnding⟩

/-- A list that ends in an end token is cut at its first one. -/
theorem exists_append_beforeEnd
    {tokens : List Token}
    {last : Token}
    (isLast : tokens.getLast? = some last)
    (ends : last.kind = .endOfInput) :
    ∃ ending rest, tokens = beforeEnd tokens ++ ending :: rest ∧ ending.kind = .endOfInput :=
  exists_append_beforeEnd_of_mem ⟨last, List.mem_of_getLast? isLast, ends⟩

/-- No end token stands before the first one. -/
theorem kind_ne_of_mem_beforeEnd
    {tokens : List Token} :
    ∀ token ∈ beforeEnd tokens, token.kind ≠ .endOfInput := by
  have others : (beforeEnd tokens).all (fun token => decide (token.kind ≠ .endOfInput)) = true :=
    List.all_takeWhile
  simpa using others

/-- Tokens are read up to the first end token. -/
theorem ofTokens_eq_finish
    {tokens rest : List Token}
    {ending : Token}
    (same : tokens = beforeEnd tokens ++ ending :: rest)
    (isEnding : ending.kind = .endOfInput) :
    Program.ofTokens tokens = (Reader.start.feedAll (beforeEnd tokens)).finish ending := by
  conv => lhs; rw [same]
  exact Reader.read_append isEnding _ rest kind_ne_of_mem_beforeEnd _

/-- What is read without a rejection is a phrase, with the violations that were found. -/
theorem bodyPhrase_ofTokens
    {tokens : List Token}
    {last : Token}
    (isLast : tokens.getLast? = some last)
    (ends : last.kind = .endOfInput)
    (accepted : SideConditionsOnly (Program.ofTokens tokens).errors) :
    BodyPhrase false (beforeEnd tokens) (Program.ofTokens tokens).statements
      (Program.ofTokens tokens).errors := by
  obtain ⟨ending, rest, same, isEnding⟩ := exists_append_beforeEnd isLast ends
  rw [ofTokens_eq_finish same isEnding] at accepted ⊢
  have only : SideConditionsOnly (Reader.start.feedAll (beforeEnd tokens)).errors := by
    intro error found
    exact accepted error (Reader.mem_finish found ending)
  have held := holds_start.feedAll only
  exact held.finish isEnding accepted

/-- What is read without an error is a phrase without violations. -/
theorem bodyPhrase_of_errors_eq_nil
    {tokens : List Token}
    {last : Token}
    (isLast : tokens.getLast? = some last)
    (ends : last.kind = .endOfInput)
    (noErrors : (Program.ofTokens tokens).errors = []) :
    BodyPhrase false (beforeEnd tokens) (Program.ofTokens tokens).statements [] := by
  have accepted : SideConditionsOnly (Program.ofTokens tokens).errors := by
    simp [noErrors, SideConditionsOnly]
  have body := bodyPhrase_ofTokens isLast ends accepted
  rwa [noErrors] at body

/-- Reading finds no error exactly in the programs that the checked grammar derives. -/
theorem errors_eq_nil_iff_derives
    {tokens : List Token}
    {last : Token}
    (isLast : tokens.getLast? = some last)
    (ends : last.kind = .endOfInput) :
    (Program.ofTokens tokens).errors = [] ↔ Derives true .program (beforeEnd tokens) := by
  constructor
  · intro noErrors
    have body := bodyPhrase_of_errors_eq_nil isLast ends noErrors
    exact derives_program_iff.mpr ⟨_, [], body, fun _ => rfl⟩
  · intro derivation
    obtain ⟨statements, errors, body, keeps⟩ := derives_program_iff.mp derivation
    obtain ⟨ending, rest, same, isEnding⟩ := exists_append_beforeEnd isLast ends
    have reads := body.ofTokens_eq isEnding rest
    rw [← same] at reads
    rw [reads]
    exact keeps rfl

/-- Tokens of the given kinds, followed by the end of the input. -/
def tokensOfKinds
    (kinds : List Kind) :
    List Token :=
  (kinds ++ [Kind.endOfInput]).map fun kind => { kind, lexeme := "", literal := .nil, line := 1 }

/-- The kinds of the tokens in `if (a) if (b) break; else c = d;`. -/
def nestedConditional : List Kind :=
  [.keyword .ifWord, .mark .leftParen, .identifier, .mark .rightParen,
    .keyword .ifWord, .mark .leftParen, .identifier, .mark .rightParen,
    .keyword .breakWord, .mark .semicolon, .keyword .elseWord,
    .identifier, .mark .equal, .identifier, .mark .semicolon]

/-- The kinds of the tokens in a loop around the nested conditional. -/
def loopedConditional : List Kind :=
  [.keyword .whileWord, .mark .leftParen, .identifier, .mark .rightParen] ++ nestedConditional

/-- A loop around the nested conditional derives, and the conditional alone does not. -/
theorem derives_loop_around_break :
    Derives true .program (beforeEnd (tokensOfKinds loopedConditional)) ∧
      ¬Derives true .program (beforeEnd (tokensOfKinds nestedConditional)) := by
  constructor
  · exact (errors_eq_nil_iff_derives rfl rfl).mp rfl
  · intro derivation
    have noErrors := (errors_eq_nil_iff_derives rfl rfl).mpr derivation
    cases noErrors

end BlockScript.Grammar
