import BlockScript.Proofs.Reading.Bodies
import BlockScript.Proofs.Reading.Errors

namespace BlockScript

/-!
# What a token can do to a reader

Every token has one of a few effects: something else is expected, a statement is
complete or awaited, a block begins or ends, the token is rejected, or it is
passed over.  `Reader.effect_feed` says so once, with the errors that come to
light and the frames that stay; what a reader keeps from token to token follows
by going through the effects.
-/

/-- The frames of the expression that is being read. -/
def Mode.frames : Mode → List Frame
  | .operand _ frames => frames
  | .operator _ frames _ => frames
  | _ => []

/-- Whether a kind is that of a brace. -/
def Kind.isBrace : Kind → Bool
  | .mark .leftBrace => true
  | .mark .rightBrace => true
  | _ => false

namespace Reader

/-- Whether a statement may begin at the next token. -/
def takesStatement
    (reader : Reader) :
    Bool :=
  match reader.mode with
  | .declaration => true
  | .statement => true
  | .afterThen .. => true
  | _ => false

/-- An error that a token may bring to light blames the token or a frame that waits. -/
def MayBlame
    (reader : Reader)
    (token : Token)
    (error : GrammarError) :
    Prop :=
  error.token = token ∨ ∃ frame ∈ reader.mode.frames, frame.error? = some error

/-- What a token does to a reader that expects no alternative. -/
inductive Effect (reader : Reader) (token : Token) : Reader → Prop where
  /-- Something else is expected next. -/
  | expects
      (noted : List GrammarError)
      (mode : Mode)
      (notBrace : token.kind.isBrace = false)
      (blames : ∀ error ∈ noted, reader.MayBlame token error)
      (frames :
        ∀ frame ∈ mode.frames, ∀ error ∈ frame.error?, reader.MayBlame token error) :
      Effect reader token ((reader.noting noted).inMode mode)
  /-- The statement that was being read is complete. -/
  | completes
      (noted : List GrammarError)
      (statement : Stmt)
      (notBrace : token.kind.isBrace = false)
      (blames : ∀ error ∈ noted, reader.MayBlame token error) :
      Effect reader token ((reader.noting noted).complete statement)
  /-- A clause awaits its statement. -/
  | awaits
      (noted : List GrammarError)
      (clause : Clause)
      (notBrace : token.kind.isBrace = false)
      (blames : ∀ error ∈ noted, reader.MayBlame token error) :
      Effect reader token ((reader.noting noted).await clause)
  /-- A block begins. -/
  | opens
      (isBrace : token.kind = .mark .leftBrace)
      (taken : reader.takesStatement = true) :
      Effect reader token reader.opened
  /-- A block ends. -/
  | closes
      {closed : Reader}
      (ends : reader.closedBy? token = some closed) :
      Effect reader token closed
  /-- The token is blamed. -/
  | rejects
      (noted : List GrammarError)
      (fault : GrammarFault)
      (blames : ∀ error ∈ noted, reader.MayBlame token error)
      (notTaken : token.kind = .mark .leftBrace → reader.takesStatement = false) :
      Effect reader token ((reader.noting noted).reject token fault)
  /-- The token is passed over while reading looks for the next statement. -/
  | skips
      (skipping : reader.mode = .skipping)
      (notClosed : reader.closedBy? token = none) :
      Effect reader token reader

variable {reader : Reader} {token : Token}

/-- A token that is blamed at once. -/
theorem Effect.reject
    (fault : GrammarFault)
    (notTaken : token.kind = .mark .leftBrace → reader.takesStatement = false) :
    Effect reader token (reader.reject token fault) :=
  .rejects [] fault (by simp) notTaken

/-- A token behind which something else is expected, outside every expression. -/
theorem Effect.expect
    (mode : Mode)
    (notBrace : token.kind.isBrace = false)
    (noFrames : mode.frames = []) :
    Effect reader token (reader.inMode mode) :=
  .expects [] mode notBrace (by simp) (by simp [noFrames])

/-- A token that completes a declaration or an expression statement in its place. -/
theorem Effect.completeAt
    (noted : List GrammarError)
    (statement : Stmt)
    (place : Place)
    (notBrace : token.kind.isBrace = false)
    (blames : ∀ error ∈ noted, reader.MayBlame token error) :
    Effect reader token ((reader.noting noted).completeAt statement place) := by
  cases place with
  | alone => exact .completes noted statement notBrace blames
  | loopHeader =>
      exact .expects noted (.forCondition (some statement)) notBrace blames (by simp [Mode.frames])

/-- A token where an operand is expected. -/
theorem effect_feedOperand
    (purpose : Purpose)
    (frames : List Frame)
    (known :
      ∀ frame ∈ frames, ∀ error ∈ frame.error?, reader.MayBlame token error)
    (notTaken : token.kind = .mark .leftBrace → reader.takesStatement = false) :
    Effect reader token (reader.feedOperand purpose frames token) := by
  have grows :
      ∀ frame : Frame, frame.error? = none →
        ∀ other ∈ frame :: frames, ∀ error ∈ other.error?, reader.MayBlame token error := by
    intro frame noError other found error blamed
    rcases List.mem_cons.mp found with rfl | before
    · rw [noError] at blamed
      cases blamed
    · exact known other before error blamed
  unfold Reader.feedOperand
  split
  case h_7 isParen =>
    exact .expects [] (.operand purpose (.group :: frames)) (by rw [isParen]; rfl) (by simp)
      (grows .group rfl)
  case h_8 =>
    split
    · rename_i operator signed
      have notBrace : token.kind.isBrace = false := by
        unfold UnaryOperator.ofKind? at signed
        split at signed <;> simp_all [Kind.isBrace]
      exact .expects [] (.operand purpose (.unary token operator :: frames)) notBrace (by simp)
        (grows (.unary token operator) rfl)
    · exact .reject .expectExpression notTaken
  all_goals
    rename_i isAtom
    exact .expects [] (.operator purpose frames _) (by rw [isAtom]; rfl) (by simp) known

/-- Filling the innermost frames brings their own errors to light and leaves the outer ones. -/
theorem exists_filled_collapse
    (level : Level)
    (errors : List GrammarError)
    (operand : Expr)
    (frames : List Frame) :
    ∃ filled : List Frame,
      frames = filled ++ (collapse level errors operand frames).frames ∧
        (collapse level errors operand frames).errors =
          (filled.filterMap Frame.error?).reverse ++ errors := by
  induction frames generalizing errors operand with
  | nil =>
      exact ⟨[], rfl, rfl⟩
  | cons frame outer inductionHypothesis =>
      unfold collapse
      split
      · obtain ⟨filled, split, found⟩ :=
          inductionHypothesis (frame.error?.toList ++ errors) (frame.fill operand)
        refine ⟨frame :: filled, congrArg (frame :: ·) split, ?_⟩
        rw [found]
        cases blames : frame.error? <;> simp [blames]
      · exact ⟨[], rfl, rfl⟩

/-- A token that ends an expression, with the errors that its frames brought to light. -/
theorem effect_feedClosing
    (purpose : Purpose)
    (expr : Expr)
    (frames : List Frame)
    (noted : List GrammarError)
    (blames : ∀ error ∈ noted, reader.MayBlame token error)
    (known : ∀ frame ∈ frames, ∀ error ∈ frame.error?, reader.MayBlame token error)
    (notTaken : reader.takesStatement = false) :
    Effect reader token ((reader.noting noted).feedClosing purpose expr token frames) := by
  have rejected :
      ∀ fault, Effect reader token ((reader.noting noted).reject token fault) :=
    fun fault => .rejects noted fault blames fun _ => notTaken
  unfold feedClosing
  split
  · rename_i outer
    split
    · rename_i isParen
      exact .expects noted (.operator purpose outer (.group expr)) (by rw [isParen]; rfl) blames
        fun frame found => known frame (List.mem_cons_of_mem _ found)
    · exact rejected _
  · rename_i condition outer
    split
    · rename_i isColon
      refine .expects noted (.operand purpose (.otherwise condition expr :: outer))
        (by rw [isColon]; rfl) blames ?_
      intro frame found error blamed
      rcases List.mem_cons.mp found with rfl | before
      · cases blamed
      · exact known frame (List.mem_cons_of_mem _ before) error blamed
    · exact rejected _
  · unfold feedPurpose
    split
    case h_1 isSemicolon => exact .completes noted _ (by rw [isSemicolon]; rfl) blames
    case h_2 isSemicolon => exact .completeAt noted _ _ (by rw [isSemicolon]; rfl) blames
    case h_3 isSemicolon => exact .completeAt noted _ _ (by rw [isSemicolon]; rfl) blames
    case h_4 isParen => exact .awaits noted _ (by rw [isParen]; rfl) blames
    case h_5 isParen => exact .awaits noted _ (by rw [isParen]; rfl) blames
    case h_6 isSemicolon =>
      exact .expects noted _ (by rw [isSemicolon]; rfl) blames (by simp [Mode.frames])
    case h_7 isParen => exact .awaits noted _ (by rw [isParen]; rfl) blames
    case h_8 => exact rejected _

/-- An assignment to something other than a variable is blamed on its equals sign. -/
theorem token_error?_assign
    (target : Expr)
    (equals : Token) :
    ∀ error ∈ (Frame.assign target equals).error?, error.token = equals := by
  intro error isError
  cases target with
  | lookup name => cases isError
  | _ =>
      cases isError
      rfl

/-- A token where an operator is expected. -/
theorem effect_feedOperator
    {purpose : Purpose}
    {frames : List Frame}
    {operand : Expr}
    (expects : reader.mode = .operator purpose frames operand) :
    Effect reader token (reader.feedOperator purpose frames operand token) := by
  have waits : reader.mode.frames = frames := by
    rw [expects]
    rfl
  have notTaken : reader.takesStatement = false := by
    simp [takesStatement, expects]
  obtain ⟨filled, split, found⟩ :=
    exists_filled_collapse (stopLevel token.kind) reader.errors operand frames
  rw [feedOperator_eq, collapseTo]
  generalize collapse (stopLevel token.kind) reader.errors operand frames = collapsed at *
  obtain ⟨expr, outer, errors⟩ := collapsed
  dsimp only at split found ⊢
  subst found
  generalize isNoted : filled.filterMap Frame.error? = noted
  have blames : ∀ error ∈ noted, reader.MayBlame token error := by
    intro error found
    rw [← isNoted] at found
    obtain ⟨frame, isFilled, isError⟩ := List.mem_filterMap.mp found
    rw [MayBlame, waits, split]
    exact .inr ⟨frame, List.mem_append_left outer isFilled, isError⟩
  have known : ∀ frame ∈ outer, ∀ error ∈ frame.error?, reader.MayBlame token error := by
    intro frame isOuter error isError
    rw [MayBlame, waits, split]
    exact .inr ⟨frame, List.mem_append_right filled isOuter, isError⟩
  have grows :
      ∀ frame : Frame, (∀ error ∈ frame.error?, error.token = token) →
        ∀ other ∈ frame :: outer, ∀ error ∈ other.error?, reader.MayBlame token error := by
    intro frame own other isOther error isError
    rcases List.mem_cons.mp isOther with rfl | before
    · exact .inl (own error isError)
    · exact known other before error isError
  unfold afterCollapse
  split
  · rename_i operator signed
    have notBrace : token.kind.isBrace = false := by
      unfold BinaryOperator.ofKind? at signed
      split at signed <;> simp_all [Kind.isBrace]
    exact .expects noted (.operand purpose (.binary token operator expr :: outer)) notBrace blames
      (grows (.binary token operator expr) (by simp [Frame.error?]))
  · split
    · rename_i isQuestion
      exact .expects noted (.operand purpose (.choice expr :: outer)) (by rw [isQuestion]; rfl)
        blames (grows (.choice expr) (by simp [Frame.error?]))
    · rename_i isEqual
      exact .expects noted (.operand purpose (.assign expr token :: outer))
        (by rw [isEqual]; rfl) blames (grows _ (token_error?_assign expr token))
    · exact effect_feedClosing purpose expr outer noted blames known notTaken

/-- The first token of a statement. -/
theorem effect_feedStatement
    (taken : token.kind = .mark .leftBrace → reader.takesStatement = true) :
    Effect reader token (reader.feedStatement token) := by
  by_cases isBreak : token.kind = .keyword .breakWord
  · rw [feedStatement_break reader isBreak]
    refine .expects _ (.leave token) (by rw [isBreak]; rfl) ?_ (by simp [Mode.frames])
    intro error isNoted
    unfold Grammar.leaveErrors at isNoted
    split at isNoted
    · cases isNoted
    · cases List.mem_singleton.mp isNoted
      exact .inl rfl
  · by_cases isBrace : token.kind = .mark .leftBrace
    · rw [feedStatement_leftBrace reader isBrace]
      exact .opens isBrace (taken isBrace)
    · unfold feedStatement
      split
      case h_1 isWord => exact .expect _ (by rw [isWord]; rfl) rfl
      case h_2 isWord => exact .expect _ (by rw [isWord]; rfl) rfl
      case h_3 isWord => exact .expect _ (by rw [isWord]; rfl) rfl
      case h_4 isWord => exact .expect _ (by rw [isWord]; rfl) rfl
      case h_5 isWord => exact (isBreak isWord).elim
      case h_6 isLeft => exact (isBrace isLeft).elim
      case h_7 =>
        exact effect_feedOperand _ [] (by simp) fun isLeft => (isBrace isLeft).elim

/-- The first token of a declaration, or the end of a block. -/
theorem effect_feedDeclaration
    (taken : token.kind = .mark .leftBrace → reader.takesStatement = true) :
    Effect reader token (reader.feedDeclaration token) := by
  unfold feedDeclaration
  split
  · rename_i closed ends
    exact .closes ends
  · split
    · rename_i isWord
      exact .expect _ (by rw [isWord]; rfl) rfl
    · exact effect_feedStatement taken

/-- A token while reading looks for the next statement. -/
theorem effect_feedSkipping
    (skipping : reader.mode = .skipping) :
    Effect reader token (reader.feedSkipping token) := by
  unfold feedSkipping
  split
  · rename_i closed ends
    exact .closes ends
  · rename_i notClosed
    split
    · rename_i resumes
      refine effect_feedDeclaration fun isBrace => ?_
      rw [isBrace] at resumes
      cases resumes
    · split
      · rename_i isSemicolon
        exact .expect _ (by rw [isSemicolon]; rfl) rfl
      · exact .skips skipping notClosed

/-- What a token does to a reader, which an alternative finds as it is and others settled. -/
theorem effect_feed
    (reader : Reader)
    (token : Token) :
    Effect reader token (reader.feed token) ∨ Effect reader.settled token (reader.feed token) := by
  have notTaken :
      reader.takesStatement = false → token.kind = .mark .leftBrace →
        reader.takesStatement = false :=
    fun isFalse _ => isFalse
  unfold feed
  cases expects : reader.mode with
  | declaration =>
      exact .inl (effect_feedDeclaration fun _ => by simp [takesStatement, expects])
  | statement =>
      exact .inl (effect_feedStatement fun _ => by simp [takesStatement, expects])
  | afterThen condition thenBranch =>
      dsimp only
      split
      · rename_i isElse
        exact .inl (.awaits [] (.ifElse condition thenBranch) (by rw [isElse]; rfl) (by simp))
      · have isSettled : reader.settled = reader.settle (.ifThen condition thenBranch) := by
          simp only [settled, expects]
        rw [← isSettled]
        refine .inr (effect_feedDeclaration fun _ => ?_)
        rw [isSettled]
        rfl
  | header begun =>
      left
      dsimp only
      split
      · rename_i isParen
        cases begun <;> exact .expect _ (by rw [isParen]; rfl) rfl
      · exact .reject _ (notTaken (by simp [takesStatement, expects]))
  | name place =>
      left
      dsimp only
      split
      · rename_i isName
        exact .expect _ (by rw [isName]; rfl) rfl
      · exact .reject _ (notTaken (by simp [takesStatement, expects]))
  | afterName place name =>
      left
      dsimp only
      split
      · rename_i isEqual
        exact .expect _ (by rw [isEqual]; rfl) rfl
      · rename_i isSemicolon
        exact .completeAt [] _ _ (by rw [isSemicolon]; rfl) (by simp)
      · exact .reject _ (notTaken (by simp [takesStatement, expects]))
  | forInitial =>
      left
      dsimp only
      split
      · rename_i isSemicolon
        exact .expect _ (by rw [isSemicolon]; rfl) rfl
      · rename_i isWord
        exact .expect _ (by rw [isWord]; rfl) rfl
      · exact effect_feedOperand _ [] (by simp) (notTaken (by simp [takesStatement, expects]))
  | forCondition initial =>
      left
      dsimp only
      split
      · rename_i isSemicolon
        exact .expect _ (by rw [isSemicolon]; rfl) rfl
      · exact effect_feedOperand _ [] (by simp) (notTaken (by simp [takesStatement, expects]))
  | forStep initial condition =>
      left
      dsimp only
      split
      · rename_i isParen
        exact .awaits [] _ (by rw [isParen]; rfl) (by simp)
      · exact effect_feedOperand _ [] (by simp) (notTaken (by simp [takesStatement, expects]))
  | leave word =>
      left
      dsimp only
      split
      · rename_i isSemicolon
        exact .completes [] _ (by rw [isSemicolon]; rfl) (by simp)
      · exact .reject _ (notTaken (by simp [takesStatement, expects]))
  | operand purpose frames =>
      left
      refine effect_feedOperand _ _ ?_ (notTaken (by simp [takesStatement, expects]))
      intro frame found error isError
      refine .inr ⟨frame, ?_, isError⟩
      rw [expects]
      exact found
  | operator purpose frames operand => exact .inl (effect_feedOperator expects)
  | skipping => exact .inl (effect_feedSkipping expects)

end Reader

end BlockScript
