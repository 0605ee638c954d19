import BlockScript.Proofs.Reading.Completion

namespace BlockScript.Grammar

open Reader

/-!
# Reading keeps its account

Every token that is not rejected keeps the account of what the reader holds.
At the end of the input the account is a program, so that what is read without
a rejection is a phrase, and its errors are exactly the violations in it.
-/

/-- What an expression must be followed by is a matter of the grammar. -/
theorem isSideCondition_fault
    (purpose : Purpose) :
    purpose.fault.isSideCondition = false := by
  cases purpose <;> rfl

/-- The token behind an expression outside every bracket keeps the account. -/
theorem holds_feedPurpose
    {reader : Reader}
    {purpose : Purpose}
    {context before tokens : List Token}
    {contextErrors beforeErrors errors : List GrammarError}
    {expr : Expr}
    {token : Token}
    (outside : ContextHolds reader.outer reader.done reader.clauses context contextErrors)
    (purposed : PurposeHolds reader.clauses purpose before beforeErrors)
    (phrase : ExprPhrase .comma tokens expr errors)
    (found : reader.errors.reverse = contextErrors ++ (beforeErrors ++ errors))
    (accepted : SideConditionsOnly (reader.feedPurpose expr token purpose).errors) :
    Holds (reader.feedPurpose expr token purpose)
      (context ++ (before ++ (tokens ++ [token]))) := by
  revert accepted
  unfold feedPurpose
  split
  · rename_i ends
    intro _
    cases purposed with
    | print begins => exact outside.complete (.print begins phrase ends) found
  · rename_i ends
    intro _
    cases purposed with
    | statement stands => exact holds_completeAt_expression outside stands phrase ends found
  · rename_i ends
    intro _
    cases purposed with
    | initial stands free begins named assigns =>
        simpa using
          holds_completeAt_variable outside stands free
            (.initialized begins named assigns phrase ends) found
  · rename_i closes
    intro _
    cases purposed with
    | ifCondition begins opens =>
        exact holds_await
          (outside.within fun around => .ifThen around begins opens phrase closes) found
  · rename_i closes
    intro _
    cases purposed with
    | whileCondition begins opens =>
        exact holds_await
          (outside.within fun around => .whileBody around begins opens phrase closes) found
  · rename_i separates
    intro _
    cases purposed with
    | forCondition first =>
        exact ⟨_, _, _, _, outside, .forStep (.header first (.present phrase) separates),
          rfl, found⟩
  · rename_i closes
    intro _
    cases purposed with
    | forStep second =>
        exact holds_await
          (outside.within fun around => .forBody around second (.present phrase) closes) found
  · intro accepted
    exact absurd accepted (not_sideConditionsOnly_reject (isSideCondition_fault _))

/-- The token that ends an expression keeps the account. -/
theorem holds_feedClosing
    {reader : Reader}
    {purpose : Purpose}
    {level : Level}
    {frames : List Frame}
    {context before frameTokens tokens : List Token}
    {contextErrors beforeErrors frameErrors errors : List GrammarError}
    {expr : Expr}
    {token : Token}
    (outside : ContextHolds reader.outer reader.done reader.clauses context contextErrors)
    (purposed : PurposeHolds reader.clauses purpose before beforeErrors)
    (framed : FramesHold frames frameTokens frameErrors)
    (stays : ∀ frame ∈ frames.head?, frame.isEndedBy .comma = false)
    (phrase : ExprPhrase level tokens expr errors)
    (found :
      reader.errors.reverse = contextErrors ++ (beforeErrors ++ (frameErrors ++ errors)))
    (accepted : SideConditionsOnly (reader.feedClosing purpose expr token frames).errors) :
    Holds (reader.feedClosing purpose expr token frames)
      (context ++ (before ++ (frameTokens ++ (tokens ++ [token])))) := by
  cases framed with
  | nil =>
      exact holds_feedPurpose outside purposed phrase.loosest found accepted
  | group around opens =>
      by_cases closes : token.kind = .mark .rightParen
      · simp only [feedClosing, closes, ↓reduceIte]
        exact ⟨_, _, _, _, outside, .operator purposed around (.group opens phrase.loosest closes),
          by simp, by simpa using found⟩
      · simp only [feedClosing, closes, ↓reduceIte] at accepted
        exact absurd accepted (not_sideConditionsOnly_reject rfl)
  | choice around allows tested asks =>
      by_cases separates : token.kind = .mark .colon
      · simp only [feedClosing, separates, ↓reduceIte]
        exact ⟨_, _, _, _, outside,
          .operand purposed (.otherwise around allows tested asks phrase.loosest separates),
          by simp, by simpa using found⟩
      · simp only [feedClosing, separates, ↓reduceIte] at accepted
        exact absurd accepted (not_sideConditionsOnly_reject rfl)
  | unary | binary | assign | otherwise =>
      have ended := stays _ rfl
      simp [Frame.isEndedBy, Frame.level?, Level.rank] at ended

/-- A token behind an expression whose ended frames have been filled keeps the account. -/
theorem holds_afterCollapse
    {reader : Reader}
    {purpose : Purpose}
    {level : Level}
    {frames : List Frame}
    {context before frameTokens tokens : List Token}
    {contextErrors beforeErrors frameErrors errors : List GrammarError}
    {expr : Expr}
    {token : Token}
    (outside : ContextHolds reader.outer reader.done reader.clauses context contextErrors)
    (purposed : PurposeHolds reader.clauses purpose before beforeErrors)
    (framed : FramesHold frames frameTokens frameErrors)
    (stays : ∀ frame ∈ frames.head?, frame.isEndedBy (stopLevel token.kind) = false)
    (phrase : ExprPhrase level tokens expr errors)
    (tight : (stopLevel token.kind).rank ≤ level.rank)
    (found :
      reader.errors.reverse = contextErrors ++ (beforeErrors ++ (frameErrors ++ errors)))
    (accepted : SideConditionsOnly (reader.afterCollapse purpose token expr frames).errors) :
    Holds (reader.afterCollapse purpose token expr frames)
      (context ++ (before ++ (frameTokens ++ (tokens ++ [token])))) := by
  cases signed : BinaryOperator.ofKind? token.kind with
  | some operator =>
      have stop : stopLevel token.kind = operator.level := by
        simp only [stopLevel, signed]
      rw [stop] at stays tight
      have allows : Allows frames operator.level :=
        fun frame isInnermost => awaited_le_of_not_ended (stays frame isInnermost)
      simp only [afterCollapse, signed]
      exact ⟨_, _, _, _, outside,
        .operand purposed (.binary framed allows (phrase.loosenTo tight) signed), rfl, found⟩
  | none =>
      by_cases asks : token.kind = .mark .question
      · have stop : stopLevel token.kind = .equality := by
          simp only [stopLevel, asks, BinaryOperator.ofKind?]
        rw [stop] at stays tight
        have allows : Allows frames .conditional :=
          fun frame isInnermost => awaited_le_conditional (stays frame isInnermost)
        simp only [afterCollapse, asks]
        exact ⟨_, _, _, _, outside,
          .operand purposed (.choice framed allows (phrase.loosenTo tight) asks), rfl, found⟩
      · by_cases assigns : token.kind = .mark .equal
        · have stop : stopLevel token.kind = .conditional := by
            simp only [stopLevel, assigns, BinaryOperator.ofKind?]
          rw [stop] at stays tight
          have allows : Allows frames .assignment :=
            fun frame isInnermost => awaited_le_assignment (stays frame isInnermost)
          simp only [afterCollapse, assigns]
          exact ⟨_, _, _, _, outside,
            .operand purposed (.assign framed allows (phrase.loosenTo tight) assigns), rfl, found⟩
        · have stop : stopLevel token.kind = .comma := by
            simp only [stopLevel, signed]
          have ends :
              reader.afterCollapse purpose token expr frames =
                reader.feedClosing purpose expr token frames := by
            simp only [afterCollapse, signed]
          rw [stop] at stays
          rw [ends] at accepted ⊢
          exact holds_feedClosing outside purposed framed stays phrase found accepted

/-- A token where an operator is expected keeps the account. -/
theorem holds_feedOperator
    {reader : Reader}
    {purpose : Purpose}
    {frames : List Frame}
    {context before frameTokens tokens : List Token}
    {contextErrors beforeErrors frameErrors errors : List GrammarError}
    {expr : Expr}
    {token : Token}
    (outside : ContextHolds reader.outer reader.done reader.clauses context contextErrors)
    (purposed : PurposeHolds reader.clauses purpose before beforeErrors)
    (framed : FramesHold frames frameTokens frameErrors)
    (phrase : ExprPhrase .unary tokens expr errors)
    (found :
      reader.errors.reverse = contextErrors ++ (beforeErrors ++ (frameErrors ++ errors)))
    (accepted : SideConditionsOnly (reader.feedOperator purpose frames expr token).errors) :
    Holds (reader.feedOperator purpose frames expr token)
      (context ++ (before ++ (frameTokens ++ (tokens ++ [token])))) := by
  have collapsed :
      CollapseHolds (stopLevel token.kind) (contextErrors ++ beforeErrors)
        (frameTokens ++ tokens)
        (collapse (stopLevel token.kind) reader.errors expr frames) :=
    framed.collapse phrase (rank_le_unary _) (fun _ _ => rank_le_unary _) (by simpa using found)
  rw [feedOperator_eq, collapseTo] at accepted ⊢
  obtain ⟨⟨level, outerTokens, filledTokens, outerErrors, filledErrors, around, filled, tight,
    sameTokens, sameErrors⟩, stays⟩ := collapsed
  have split :
      frameTokens ++ (tokens ++ [token]) = outerTokens ++ (filledTokens ++ [token]) := by
    rw [← List.append_assoc, sameTokens, List.append_assoc]
  rw [split]
  exact holds_afterCollapse
    (outside : ContextHolds { reader with errors := _ }.outer _ _ _ _)
    purposed around stays filled tight (by simpa using sameErrors) accepted

/-- A token where an operand is expected keeps the account. -/
theorem holds_feedOperand
    {reader : Reader}
    {purpose : Purpose}
    {frames : List Frame}
    {context before frameTokens : List Token}
    {contextErrors beforeErrors frameErrors : List GrammarError}
    {token : Token}
    (outside : ContextHolds reader.outer reader.done reader.clauses context contextErrors)
    (purposed : PurposeHolds reader.clauses purpose before beforeErrors)
    (framed : FramesHold frames frameTokens frameErrors)
    (found : reader.errors.reverse = contextErrors ++ (beforeErrors ++ frameErrors))
    (accepted : SideConditionsOnly (reader.feedOperand purpose frames token).errors) :
    Holds (reader.feedOperand purpose frames token)
      (context ++ (before ++ (frameTokens ++ [token]))) := by
  cases alone : exprOfToken? token with
  | some expr =>
      rw [feedOperand_of_exprOfToken? _ _ _ alone]
      exact ⟨_, _, _, _, outside, .operator purposed framed (.atom alone), rfl,
        by simpa [inMode] using found⟩
  | none =>
      by_cases opens : token.kind = .mark .leftParen
      · rw [feedOperand_leftParen _ _ _ opens]
        exact ⟨_, _, _, _, outside, .operand purposed (.group framed opens), rfl, found⟩
      · cases signed : UnaryOperator.ofKind? token.kind with
        | some operator =>
            rw [feedOperand_unary _ _ _ signed]
            exact ⟨_, _, _, _, outside, .operand purposed (.unary framed signed), rfl, found⟩
        | none =>
            rw [feedOperand_reject _ _ _ alone opens signed] at accepted
            exact absurd accepted (not_sideConditionsOnly_reject rfl)

/-- The first token of a statement keeps the account. -/
theorem holds_feedStatement
    {reader : Reader}
    {context : List Token}
    {contextErrors : List GrammarError}
    {token : Token}
    (outside : ContextHolds reader.outer reader.done reader.clauses context contextErrors)
    (found : reader.errors.reverse = contextErrors)
    (accepted : SideConditionsOnly (reader.feedStatement token).errors) :
    Holds (reader.feedStatement token) (context ++ [token]) := by
  by_cases leaves : token.kind = .keyword .breakWord
  · rw [feedStatement_break reader leaves]
    refine ⟨context, [token], contextErrors, leaveErrors reader.inLoop token, outside,
      .leave leaves, rfl, ?_⟩
    simp [noting, inMode, found]
  · revert accepted
    unfold feedStatement
    split
    case h_1 begins =>
      intro _
      exact ⟨_, _, _, _, outside, .header begins, rfl, by simpa using found⟩
    case h_2 begins =>
      intro _
      exact ⟨_, _, _, _, outside, .header begins, rfl, by simpa using found⟩
    case h_3 begins =>
      intro _
      exact ⟨_, _, _, _, outside, .operand (.print begins) .nil, rfl, by simpa using found⟩
    case h_4 begins =>
      intro _
      exact ⟨_, _, _, _, outside, .header begins, rfl, by simpa using found⟩
    case h_5 begins =>
      exact absurd begins leaves
    case h_6 opens =>
      intro _
      obtain ⟨around, before, inside⟩ := outside
      have opened :
          BlocksHold ({ before := reader.done, clauses := reader.clauses } :: reader.outer) _ _ :=
        .cons around before inside opens
      exact ⟨_, [], _, [], opened.context, .declaration rfl, by simp, by simpa using found⟩
    case h_7 =>
      intro accepted
      exact holds_feedOperand outside (.statement .alone) .nil (by simpa using found) accepted

/-- The brace that closes the innermost block completes the block. -/
theorem holds_closedBy?
    {reader closed : Reader}
    {context : List Token}
    {contextErrors : List GrammarError}
    {token : Token}
    (outside : ContextHolds reader.outer reader.done reader.clauses context contextErrors)
    (free : reader.clauses = [])
    (found : reader.errors.reverse = contextErrors)
    (closes : reader.closedBy? token = some closed) :
    Holds closed (context ++ [token]) := by
  unfold closedBy? at closes
  split at closes
  · rename_i block outer isBrace opened
    cases closes
    rw [opened, free] at outside
    cases outside with
    | intro around before inside =>
        cases inside
        cases around with
        | cons around earlier within opens =>
            let enclosing : Reader :=
              { reader with outer, done := block.before, clauses := block.clauses }
            have context :
                ContextHolds enclosing.outer enclosing.done enclosing.clauses _ _ :=
              .intro around earlier within
            simpa using context.complete (.block opens before isBrace) (by simpa using found)
  · cases closes

/-- The first token of a declaration or a statement keeps the account. -/
theorem holds_feedDeclaration
    {reader : Reader}
    {context : List Token}
    {contextErrors : List GrammarError}
    {token : Token}
    (outside : ContextHolds reader.outer reader.done reader.clauses context contextErrors)
    (free : reader.clauses = [])
    (found : reader.errors.reverse = contextErrors)
    (accepted : SideConditionsOnly (reader.feedDeclaration token).errors) :
    Holds (reader.feedDeclaration token) (context ++ [token]) := by
  cases closes : reader.closedBy? token with
  | some closed =>
      simp only [feedDeclaration, closes]
      exact holds_closedBy? outside free found closes
  | none =>
      by_cases begins : token.kind = .keyword .varWord
      · simp only [feedDeclaration, closes, begins, ↓reduceIte]
        exact ⟨_, _, _, _, outside, .name .alone (fun _ => free) begins, rfl,
          by simpa using found⟩
      · simp only [feedDeclaration, closes, begins, ↓reduceIte] at accepted ⊢
        exact holds_feedStatement outside found accepted

section Modes

variable {reader : Reader} {context statement : List Token}
  {contextErrors statementErrors : List GrammarError} {token : Token}

/-- An `else` opens the other branch of a conditional; any other token settles the conditional. -/
theorem holds_feed_afterThen
    {condition : Expr}
    {thenBranch : Stmt}
    (expects : reader.mode = .afterThen condition thenBranch)
    (outside : ContextHolds reader.outer reader.done reader.clauses context contextErrors)
    (mode : ModeHolds reader.inLoop reader.clauses reader.mode statement statementErrors)
    (found : reader.errors.reverse = contextErrors ++ statementErrors)
    (accepted : SideConditionsOnly (reader.feed token).errors) :
    Holds (reader.feed token) (context ++ (statement ++ [token])) := by
  by_cases separates : token.kind = .keyword .elseWord
  · rw [expects] at mode
    cases mode with
    | afterThen begins opens tested closes chosen =>
        simp only [Reader.feed, expects, separates, ↓reduceIte]
        simpa using
          holds_await
            (outside.within fun around =>
              .ifElse around begins opens tested closes chosen separates)
            found
  · have held : Holds reader (context ++ statement) :=
      ⟨context, statement, contextErrors, statementErrors, outside, mode, rfl, found⟩
    have settles : reader.settled = reader.settle (.ifThen condition thenBranch) := by
      simp only [Reader.settled, expects]
    obtain ⟨before, nothing, beforeErrors, none, settledOutside, settledMode, same, noted⟩ :=
      settles ▸ held.settled
    cases settledMode with
    | declaration free =>
        simp only [Reader.feed, expects, separates, ↓reduceIte] at accepted ⊢
        rw [← List.append_assoc, same, List.append_nil]
        exact holds_feedDeclaration settledOutside free (by simpa using noted) accepted

/-- Behind the word of a header only its parenthesis is taken. -/
theorem holds_feed_header
    {header : Header}
    {word : Token}
    (expects : reader.mode = .header header)
    (outside : ContextHolds reader.outer reader.done reader.clauses context contextErrors)
    (begins : word.kind = .keyword (headerWord header))
    (found : reader.errors.reverse = contextErrors)
    (accepted : SideConditionsOnly (reader.feed token).errors) :
    Holds (reader.feed token) (context ++ [word, token]) := by
  by_cases opens : token.kind = .mark .leftParen
  · simp only [Reader.feed, expects, opens, ↓reduceIte]
    cases header with
    | ifHeader =>
        exact ⟨_, _, _, _, outside, .operand (.ifCondition begins opens) .nil, rfl,
          by simpa using found⟩
    | whileHeader =>
        exact ⟨_, _, _, _, outside, .operand (.whileCondition begins opens) .nil, rfl,
          by simpa using found⟩
    | forHeader =>
        exact ⟨_, _, _, _, outside, .forInitial (.loopHeader begins opens), rfl,
          by simpa using found⟩
  · simp only [Reader.feed, expects, opens, ↓reduceIte] at accepted
    exact absurd accepted (not_sideConditionsOnly_reject (by cases header <;> rfl))

/-- Behind a declared name its value begins or the declaration ends. -/
theorem holds_feed_afterName
    {place : Place}
    {before : List Token}
    {word name : Token}
    (expects : reader.mode = .afterName place name)
    (outside : ContextHolds reader.outer reader.done reader.clauses context contextErrors)
    (stands : PlaceHolds place before)
    (free : place = .alone → reader.clauses = [])
    (begins : word.kind = .keyword .varWord)
    (named : name.kind = .identifier)
    (found : reader.errors.reverse = contextErrors)
    (accepted : SideConditionsOnly (reader.feed token).errors) :
    Holds (reader.feed token) (context ++ (before ++ [word, name, token])) := by
  by_cases assigns : token.kind = .mark .equal
  · simp only [Reader.feed, expects, assigns]
    exact ⟨_, _, _, _, outside, .operand (.initial stands free begins named assigns) .nil,
      by simp, by simpa using found⟩
  · by_cases ends : token.kind = .mark .semicolon
    · simp only [Reader.feed, expects, ends]
      simpa using
        holds_completeAt_variable outside stands free (.bare begins named ends)
          (by simpa using found)
    · simp only [Reader.feed, expects] at accepted
      exact absurd accepted (not_sideConditionsOnly_reject rfl)

/-- The header of a counting loop begins with a declaration, an expression or nothing. -/
theorem holds_feed_forInitial
    (expects : reader.mode = .forInitial)
    (outside : ContextHolds reader.outer reader.done reader.clauses context contextErrors)
    (stands : PlaceHolds .loopHeader statement)
    (found : reader.errors.reverse = contextErrors)
    (accepted : SideConditionsOnly (reader.feed token).errors) :
    Holds (reader.feed token) (context ++ (statement ++ [token])) := by
  by_cases ends : token.kind = .mark .semicolon
  · simp only [Reader.feed, expects, ends]
    cases stands with
    | loopHeader begins opens =>
        exact ⟨_, _, _, _, outside, .forCondition (.header begins opens (.missing ends)), rfl,
          by simpa using found⟩
  · by_cases begins : token.kind = .keyword .varWord
    · simp only [Reader.feed, expects, begins]
      exact ⟨_, _, _, _, outside, .name stands (by simp) begins, rfl, by simpa using found⟩
    · simp only [Reader.feed, expects] at accepted ⊢
      exact holds_feedOperand outside (.statement stands) .nil (by simpa using found) accepted

end Modes

/-- A token that is not rejected keeps the account. -/
theorem Holds.feed
    {reader : Reader}
    {tokens : List Token}
    {token : Token}
    (held : Holds reader tokens)
    (accepted : SideConditionsOnly (reader.feed token).errors) :
    Holds (reader.feed token) (tokens ++ [token]) := by
  obtain ⟨context, statement, contextErrors, statementErrors, outside, mode, rfl, found⟩ := held
  rw [List.append_assoc]
  cases expects : reader.mode with
  | declaration =>
      rw [expects] at mode
      cases mode with
      | declaration free =>
          simp only [Reader.feed, expects] at accepted ⊢
          exact holds_feedDeclaration outside free (by simpa using found) accepted
  | statement =>
      rw [expects] at mode
      cases mode with
      | statement =>
          simp only [Reader.feed, expects] at accepted ⊢
          exact holds_feedStatement outside (by simpa using found) accepted
  | afterThen condition thenBranch =>
      exact holds_feed_afterThen expects outside mode found accepted
  | header header =>
      rw [expects] at mode
      cases mode with
      | header begins =>
          exact holds_feed_header expects outside begins (by simpa using found) accepted
  | name place =>
      rw [expects] at mode
      cases mode with
      | name stands free begins =>
          by_cases named : token.kind = .identifier
          · simp only [Reader.feed, expects, named, ↓reduceIte]
            exact ⟨_, _, _, _, outside, .afterName stands free begins named, by simp,
              by simpa using found⟩
          · simp only [Reader.feed, expects, named, ↓reduceIte] at accepted
            exact absurd accepted (not_sideConditionsOnly_reject rfl)
  | afterName place name =>
      rw [expects] at mode
      cases mode with
      | afterName stands free begins named =>
          rw [List.append_nil] at found
          simpa using holds_feed_afterName expects outside stands free begins named found accepted
  | forInitial =>
      rw [expects] at mode
      cases mode with
      | forInitial stands =>
          exact holds_feed_forInitial expects outside stands (by simpa using found) accepted
  | forCondition initial =>
      rw [expects] at mode
      cases mode with
      | forCondition first =>
          by_cases separates : token.kind = .mark .semicolon
          · simp only [Reader.feed, expects, separates, ↓reduceIte]
            exact ⟨_, _, _, _, outside, .forStep (.header first .missing separates), rfl,
              by simpa using found⟩
          · simp only [Reader.feed, expects, separates, ↓reduceIte] at accepted ⊢
            exact holds_feedOperand outside (.forCondition first) .nil (by simpa using found)
              accepted
  | forStep initial condition =>
      rw [expects] at mode
      cases mode with
      | forStep second =>
          by_cases closes : token.kind = .mark .rightParen
          · simp only [Reader.feed, expects, closes, ↓reduceIte]
            exact holds_await
              (outside.within fun around => .forBody around second .missing closes)
              (by simpa using found)
          · simp only [Reader.feed, expects, closes, ↓reduceIte] at accepted ⊢
            exact holds_feedOperand outside (.forStep second) .nil (by simpa using found)
              accepted
  | leave word =>
      rw [expects] at mode
      cases mode with
      | leave begins =>
          by_cases ends : token.kind = .mark .semicolon
          · simp only [Reader.feed, expects, ends, ↓reduceIte]
            exact outside.complete (.leave begins ends) found
          · simp only [Reader.feed, expects, ends, ↓reduceIte] at accepted
            exact absurd accepted (not_sideConditionsOnly_reject rfl)
  | operand purpose frames =>
      rw [expects] at mode
      cases mode with
      | operand purposed framed =>
          simp only [Reader.feed, expects] at accepted ⊢
          simpa using holds_feedOperand outside purposed framed found accepted
  | operator purpose frames operand =>
      rw [expects] at mode
      cases mode with
      | operator purposed framed phrase =>
          simp only [Reader.feed, expects] at accepted ⊢
          simpa using holds_feedOperator outside purposed framed phrase found accepted
  | skipping =>
      rw [expects] at mode
      cases mode

/-- Tokens none of which is rejected keep the account. -/
theorem Holds.feedAll
    {reader : Reader}
    {before tokens : List Token}
    (held : Holds reader before)
    (accepted : SideConditionsOnly (reader.feedAll tokens).errors) :
    Holds (reader.feedAll tokens) (before ++ tokens) := by
  induction tokens generalizing reader before with
  | nil =>
      simpa using held
  | cons token tokens inductionHypothesis =>
      have kept : (reader.feed token).errors <:+ (reader.feedAll (token :: tokens)).errors :=
        suffix_feedAll (reader.feed token) tokens
      have step : Holds (reader.feed token) (before ++ [token]) :=
        held.feed fun error found => accepted error (kept.subset found)
      simpa using inductionHypothesis step accepted

section EndOfInput

variable {token : Token}

/-- The end of the input never completes the purpose of an expression. -/
theorem not_sideConditionsOnly_feedPurpose
    (ends : token.kind = .endOfInput)
    (reader : Reader)
    (expr : Expr)
    (purpose : Purpose) :
    ¬SideConditionsOnly (reader.feedPurpose expr token purpose).errors := by
  unfold feedPurpose
  split
  case h_8 => exact not_sideConditionsOnly_reject (isSideCondition_fault _)
  all_goals simp_all

/-- The end of the input never ends an expression. -/
theorem not_sideConditionsOnly_feedClosing
    (ends : token.kind = .endOfInput)
    (reader : Reader)
    (purpose : Purpose)
    (expr : Expr)
    (frames : List Frame) :
    ¬SideConditionsOnly (reader.feedClosing purpose expr token frames).errors := by
  unfold feedClosing
  split
  · rw [if_neg (by simp [ends])]
    exact not_sideConditionsOnly_reject rfl
  · rw [if_neg (by simp [ends])]
    exact not_sideConditionsOnly_reject rfl
  · exact not_sideConditionsOnly_feedPurpose ends reader expr purpose

/-- The end of the input never stands where an operator is expected. -/
theorem not_sideConditionsOnly_feedOperator
    (ends : token.kind = .endOfInput)
    (reader : Reader)
    (purpose : Purpose)
    (frames : List Frame)
    (operand : Expr) :
    ¬SideConditionsOnly (reader.feedOperator purpose frames operand token).errors := by
  simp only [feedOperator, ends, BinaryOperator.ofKind?, collapseTo]
  exact not_sideConditionsOnly_feedClosing ends _ purpose _ _

/-- The end of the input never stands where an operand is expected. -/
theorem not_sideConditionsOnly_feedOperand
    (ends : token.kind = .endOfInput)
    (reader : Reader)
    (purpose : Purpose)
    (frames : List Frame) :
    ¬SideConditionsOnly (reader.feedOperand purpose frames token).errors := by
  have rejects :
      reader.feedOperand purpose frames token = reader.reject token .expectExpression := by
    simp [feedOperand, ends, UnaryOperator.ofKind?]
  rw [rejects]
  exact not_sideConditionsOnly_reject rfl

/-- The end of the input is rejected inside a statement. -/
theorem not_sideConditionsOnly_feed
    (ends : token.kind = .endOfInput)
    {reader : Reader}
    (notDeclaration : reader.mode ≠ .declaration)
    (notSkipping : reader.mode ≠ .skipping)
    (notSettled : ∀ condition thenBranch, reader.mode ≠ .afterThen condition thenBranch) :
    ¬SideConditionsOnly (reader.feed token).errors := by
  cases expects : reader.mode with
  | declaration => exact absurd expects notDeclaration
  | skipping => exact absurd expects notSkipping
  | afterThen condition thenBranch => exact absurd expects (notSettled condition thenBranch)
  | statement =>
      simp only [Reader.feed, expects, feedStatement, ends]
      exact not_sideConditionsOnly_feedOperand ends reader _ _
  | header header =>
      simp only [Reader.feed, expects, ends, reduceCtorEq, ↓reduceIte]
      exact not_sideConditionsOnly_reject (by cases header <;> rfl)
  | name place =>
      simp only [Reader.feed, expects, ends, reduceCtorEq, ↓reduceIte]
      exact not_sideConditionsOnly_reject rfl
  | afterName place name =>
      simp only [Reader.feed, expects, ends]
      exact not_sideConditionsOnly_reject rfl
  | forInitial =>
      simp only [Reader.feed, expects, ends]
      exact not_sideConditionsOnly_feedOperand ends reader _ _
  | forCondition initial =>
      simp only [Reader.feed, expects, ends, reduceCtorEq, ↓reduceIte]
      exact not_sideConditionsOnly_feedOperand ends reader _ _
  | forStep initial condition =>
      simp only [Reader.feed, expects, ends, reduceCtorEq, ↓reduceIte]
      exact not_sideConditionsOnly_feedOperand ends reader _ _
  | leave word =>
      simp only [Reader.feed, expects, ends, reduceCtorEq, ↓reduceIte]
      exact not_sideConditionsOnly_reject rfl
  | operand purpose frames =>
      simp only [Reader.feed, expects]
      exact not_sideConditionsOnly_feedOperand ends reader purpose frames
  | operator purpose frames operand =>
      simp only [Reader.feed, expects]
      exact not_sideConditionsOnly_feedOperator ends reader purpose frames operand

end EndOfInput

/-- A reader that has settled awaits no alternative. -/
theorem mode_settled_ne
    (reader : Reader)
    (condition : Expr)
    (thenBranch : Stmt) :
    reader.settled.mode ≠ .afterThen condition thenBranch := by
  unfold Reader.settled
  split
  · simp [settle]
  · rename_i notAfter
    exact notAfter condition thenBranch

/-- The errors at the end of the input are those of the open statement and the open blocks. -/
theorem sideConditionsOnly_finish
    {reader : Reader}
    {ending : Token}
    (accepted : SideConditionsOnly (reader.finish ending).errors) :
    SideConditionsOnly (reader.endStatement ending).errors ∧
      (reader.endStatement ending).outer = [] := by
  let unclosed : GrammarError := { token := ending, fault := .expectBraceAfterBlock }
  have found :
      (reader.finish ending).errors =
        (List.replicate (reader.endStatement ending).outer.length unclosed ++
          (reader.endStatement ending).errors).reverse :=
    rfl
  rw [found] at accepted
  refine ⟨fun error isError => accepted error (by simp [isError]), ?_⟩
  cases opened : (reader.endStatement ending).outer with
  | nil =>
      rfl
  | cons block outer =>
      have isSide := accepted unclosed (by simp [opened])
      cases isSide

/-- A reader between two statements outside every block has read a program. -/
theorem Holds.program
    {reader : Reader}
    {tokens : List Token}
    (held : Holds reader tokens)
    (expects : reader.mode = .declaration)
    (outermost : reader.outer = []) :
    BodyPhrase false tokens reader.done.reverse reader.errors.reverse := by
  obtain ⟨context, statement, contextErrors, statementErrors, outside, mode, rfl, found⟩ := held
  rw [expects] at mode
  rw [found]
  cases mode with
  | declaration free =>
      rw [outermost, free] at outside
      cases outside with
      | intro around before inside =>
          cases around
          cases inside
          simpa [blocksInLoop] using before

/-- What has been read when the input ends without a rejection is a program. -/
theorem Holds.finish
    {reader : Reader}
    {tokens : List Token}
    {ending : Token}
    (held : Holds reader tokens)
    (ends : ending.kind = .endOfInput)
    (accepted : SideConditionsOnly (reader.finish ending).errors) :
    BodyPhrase false tokens (reader.finish ending).statements (reader.finish ending).errors := by
  rw [← finish_settled] at accepted ⊢
  have notAfter := mode_settled_ne reader
  have held := held.settled
  obtain ⟨only, outermost⟩ := sideConditionsOnly_finish accepted
  by_cases expects : reader.settled.mode = .declaration
  · have same : reader.settled.endStatement ending = reader.settled := by
      simp only [endStatement, expects]
    rw [same] at outermost
    have program := held.program expects outermost
    simpa [Reader.finish, same, Reader.program, kept, outermost] using program
  · have notSkipping : reader.settled.mode ≠ .skipping := by
      intro skips
      obtain ⟨_, _, _, _, _, mode, _, _⟩ := held
      rw [skips] at mode
      cases mode
    have same : reader.settled.endStatement ending = reader.settled.feed ending := by
      unfold endStatement
      split <;> simp_all
    rw [same] at only
    exact absurd only (not_sideConditionsOnly_feed ends expects notSkipping notAfter)

end BlockScript.Grammar
