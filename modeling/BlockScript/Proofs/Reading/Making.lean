import BlockScript.Proofs.Reading.Feeding

namespace BlockScript

/-!
# What trees are made of

Whatever the tokens are, a tree that has been read is made of them: its names are
identifiers, its operators are the ones that their tokens stand for, its literals are the
values of numbers and strings or reserved words, and what leaves a loop is the word for it.
Rejected tokens only drop what was being read, so that they keep this too.
-/

/-- An expression is made of allowed tokens, each used as what it is. -/
inductive Expr.MadeOf (allowed : Token → Prop) : Expr → Prop where
  | assign
      {name : Token}
      {value : Expr}
      (allows : allowed name)
      (isName : name.kind = .identifier)
      (valueMade : value.MadeOf allowed) :
      MadeOf allowed (.assign name value)
  | binary
      {token : Token}
      {operator : BinaryOperator}
      {left right : Expr}
      (allows : allowed token)
      (signed : BinaryOperator.ofKind? token.kind = some operator)
      (leftMade : left.MadeOf allowed)
      (rightMade : right.MadeOf allowed) :
      MadeOf allowed (.binary token operator left right)
  | group
      {inner : Expr}
      (innerMade : inner.MadeOf allowed) :
      MadeOf allowed (.group inner)
  | nothing :
      MadeOf allowed (.literal .nil)
  | truth
      (value : Bool) :
      MadeOf allowed (.literal (.bool value))
  | literal
      {token : Token}
      (allows : allowed token)
      (valued : token.kind = .number ∨ token.kind = .string) :
      MadeOf allowed (.literal token.literal)
  | conditional
      {condition thenValue elseValue : Expr}
      (conditionMade : condition.MadeOf allowed)
      (thenMade : thenValue.MadeOf allowed)
      (elseMade : elseValue.MadeOf allowed) :
      MadeOf allowed (.conditional condition thenValue elseValue)
  | unary
      {token : Token}
      {operator : UnaryOperator}
      {operand : Expr}
      (allows : allowed token)
      (signed : UnaryOperator.ofKind? token.kind = some operator)
      (operandMade : operand.MadeOf allowed) :
      MadeOf allowed (.unary token operator operand)
  | lookup
      {name : Token}
      (allows : allowed name)
      (isName : name.kind = .identifier) :
      MadeOf allowed (.lookup name)

/-- A statement is made of allowed tokens, each used as what it is. -/
inductive Stmt.MadeOf (allowed : Token → Prop) : Stmt → Prop where
  | block
      {body : List Stmt}
      (bodyMade : ∀ statement ∈ body, statement.MadeOf allowed) :
      MadeOf allowed (.block body)
  | leave
      {word : Token}
      (allows : allowed word)
      (isWord : word.kind = .keyword .breakWord) :
      MadeOf allowed (.leave word)
  | expression
      {value : Expr}
      (valueMade : value.MadeOf allowed) :
      MadeOf allowed (.expression value)
  | ifThen
      {condition : Expr}
      {thenBranch : Stmt}
      (conditionMade : condition.MadeOf allowed)
      (thenMade : thenBranch.MadeOf allowed) :
      MadeOf allowed (.ifThen condition thenBranch)
  | ifElse
      {condition : Expr}
      {thenBranch elseBranch : Stmt}
      (conditionMade : condition.MadeOf allowed)
      (thenMade : thenBranch.MadeOf allowed)
      (elseMade : elseBranch.MadeOf allowed) :
      MadeOf allowed (.ifElse condition thenBranch elseBranch)
  | print
      {value : Expr}
      (valueMade : value.MadeOf allowed) :
      MadeOf allowed (.print value)
  | declare
      {name : Token}
      {initial : Option Expr}
      (allows : allowed name)
      (isName : name.kind = .identifier)
      (initialMade : ∀ value ∈ initial, value.MadeOf allowed) :
      MadeOf allowed (.declare name initial)
  | loop
      {condition : Expr}
      {body : Stmt}
      (conditionMade : condition.MadeOf allowed)
      (bodyMade : body.MadeOf allowed) :
      MadeOf allowed (.loop condition body)

/-- The held part of an expression is made of allowed tokens. -/
def Frame.MadeOf
    (allowed : Token → Prop) :
    Frame → Prop
  | .unary token operator =>
      allowed token ∧ UnaryOperator.ofKind? token.kind = some operator
  | .binary token operator left =>
      allowed token ∧ BinaryOperator.ofKind? token.kind = some operator ∧ left.MadeOf allowed
  | .assign target _ => target.MadeOf allowed
  | .otherwise condition thenValue => condition.MadeOf allowed ∧ thenValue.MadeOf allowed
  | .choice condition => condition.MadeOf allowed
  | .group => True

/-- The part of a header before an expression is made of allowed tokens. -/
def Purpose.MadeOf
    (allowed : Token → Prop) :
    Purpose → Prop
  | .initial _ name => allowed name ∧ name.kind = .identifier
  | .forCondition first => ∀ statement ∈ first, statement.MadeOf allowed
  | .forStep first condition =>
      (∀ statement ∈ first, statement.MadeOf allowed) ∧
        ∀ expr ∈ condition, expr.MadeOf allowed
  | _ => True

/-- What a clause holds before the statement it awaits is made of allowed tokens. -/
def Clause.MadeOf
    (allowed : Token → Prop) :
    Clause → Prop
  | .ifThen condition => condition.MadeOf allowed
  | .ifElse condition thenBranch => condition.MadeOf allowed ∧ thenBranch.MadeOf allowed
  | .whileBody condition => condition.MadeOf allowed
  | .forBody initial condition step =>
      (∀ statement ∈ initial, statement.MadeOf allowed) ∧
        (∀ expr ∈ condition, expr.MadeOf allowed) ∧ ∀ expr ∈ step, expr.MadeOf allowed

/-- What has been read of the innermost statement is made of allowed tokens. -/
def Mode.MadeOf
    (allowed : Token → Prop) :
    Mode → Prop
  | .afterThen condition thenBranch => condition.MadeOf allowed ∧ thenBranch.MadeOf allowed
  | .afterName _ declared => allowed declared ∧ declared.kind = .identifier
  | .forCondition initial => ∀ statement ∈ initial, statement.MadeOf allowed
  | .forStep initial condition =>
      (∀ statement ∈ initial, statement.MadeOf allowed) ∧
        ∀ expr ∈ condition, expr.MadeOf allowed
  | .leave word => allowed word ∧ word.kind = .keyword .breakWord
  | .operand purpose frames =>
      purpose.MadeOf allowed ∧ ∀ frame ∈ frames, frame.MadeOf allowed
  | .operator purpose frames left =>
      purpose.MadeOf allowed ∧ (∀ frame ∈ frames, frame.MadeOf allowed) ∧ left.MadeOf allowed
  | _ => True

variable {allowed : Token → Prop}

/-- A frame that is filled makes an expression of allowed tokens. -/
theorem Frame.MadeOf.fill
    {frame : Frame}
    {operand : Expr}
    (made : frame.MadeOf allowed)
    (operandMade : operand.MadeOf allowed) :
    (frame.fill operand).MadeOf allowed := by
  cases frame with
  | unary token operator => exact .unary made.1 made.2 operandMade
  | binary token operator left => exact .binary made.1 made.2.1 made.2.2 operandMade
  | assign target equals =>
      cases target with
      | lookup name =>
          cases made with
          | lookup allows isName => exact .assign allows isName operandMade
      | _ => exact made
  | otherwise condition thenValue => exact .conditional made.1 made.2 operandMade
  | choice condition => exact operandMade
  | group => exact .group operandMade

/-- Filling the innermost frames keeps to allowed tokens. -/
theorem madeOf_collapse
    (level : Level)
    (errors : List GrammarError)
    {operand : Expr}
    {frames : List Frame}
    (operandMade : operand.MadeOf allowed)
    (framesMade : ∀ frame ∈ frames, frame.MadeOf allowed) :
    (collapse level errors operand frames).expr.MadeOf allowed ∧
      ∀ frame ∈ (collapse level errors operand frames).frames, frame.MadeOf allowed := by
  induction frames generalizing errors operand with
  | nil =>
      exact ⟨operandMade, framesMade⟩
  | cons frame outer inductionHypothesis =>
      unfold collapse
      split
      · rw [List.forall_mem_cons] at framesMade
        exact inductionHypothesis _ (framesMade.1.fill operandMade) framesMade.2
      · exact ⟨operandMade, framesMade⟩

/-- A counting loop is made of what its parts are made of. -/
theorem Stmt.madeOf_forLoop
    {initial : Option Stmt}
    {condition step : Option Expr}
    {body : Stmt}
    (initialMade : ∀ statement ∈ initial, statement.MadeOf allowed)
    (conditionMade : ∀ expr ∈ condition, expr.MadeOf allowed)
    (stepMade : ∀ expr ∈ step, expr.MadeOf allowed)
    (bodyMade : body.MadeOf allowed) :
    (forLoop initial condition step body).MadeOf allowed := by
  have bodyAndStep :
      ∀ statement ∈ body :: step.toList.map .expression, statement.MadeOf allowed := by
    rw [List.forall_mem_cons, List.forall_mem_map]
    exact ⟨bodyMade, fun expr isStep => .expression (stepMade expr (Option.mem_toList.mp isStep))⟩
  have holds : (condition.getD (.literal (.bool true))).MadeOf allowed := by
    cases condition with
    | none => exact .truth true
    | some expr => exact conditionMade expr rfl
  refine .block ?_
  rw [List.forall_mem_append, List.forall_mem_singleton]
  exact ⟨fun statement isInitial => initialMade statement (Option.mem_toList.mp isInitial),
    .loop holds (.block bodyAndStep)⟩

/-- A clause that is filled makes a statement of allowed tokens. -/
theorem Clause.MadeOf.fill
    {clause : Clause}
    {inner : Stmt}
    (made : clause.MadeOf allowed)
    (innerMade : inner.MadeOf allowed) :
    (clause.fill inner).MadeOf allowed := by
  cases clause with
  | ifThen condition => exact .ifThen made innerMade
  | ifElse condition thenBranch => exact .ifElse made.1 made.2 innerMade
  | whileBody condition => exact .loop made innerMade
  | forBody initial condition step =>
      exact Stmt.madeOf_forLoop made.1 made.2.1 made.2.2 innerMade

/-- Clauses that are filled from the innermost on make a statement of allowed tokens. -/
theorem Clause.madeOf_foldl_fill
    {clauses : List Clause}
    {inner : Stmt}
    (clausesMade : ∀ clause ∈ clauses, clause.MadeOf allowed)
    (innerMade : inner.MadeOf allowed) :
    (clauses.foldl fill inner).MadeOf allowed := by
  induction clauses generalizing inner with
  | nil =>
      exact innerMade
  | cons clause outer inductionHypothesis =>
      rw [List.forall_mem_cons] at clausesMade
      exact inductionHypothesis clausesMade.2 (clausesMade.1.fill innerMade)

namespace Reader

/-- A reader holds only what is made of allowed tokens. -/
structure MadeOf
    (allowed : Token → Prop)
    (reader : Reader) :
    Prop where
  before : ∀ block ∈ reader.outer, ∀ statement ∈ block.before, statement.MadeOf allowed
  around : ∀ block ∈ reader.outer, ∀ clause ∈ block.clauses, clause.MadeOf allowed
  done : ∀ statement ∈ reader.done, statement.MadeOf allowed
  clauses : ∀ clause ∈ reader.clauses, clause.MadeOf allowed
  mode : reader.mode.MadeOf allowed

/-- A reader that has taken nothing holds nothing. -/
theorem madeOf_start :
    start.MadeOf allowed :=
  ⟨nofun, nofun, nofun, nofun, trivial⟩

namespace MadeOf

variable {reader : Reader}

/-- Errors are no part of what is held. -/
theorem withErrors
    (made : reader.MadeOf allowed)
    (errors : List GrammarError) :
    { reader with errors }.MadeOf allowed :=
  ⟨made.before, made.around, made.done, made.clauses, made.mode⟩

/-- Something else is expected. -/
theorem expect
    (made : reader.MadeOf allowed)
    {mode : Mode}
    (modeMade : mode.MadeOf allowed) :
    { reader with mode }.MadeOf allowed :=
  ⟨made.before, made.around, made.done, made.clauses, modeMade⟩

/-- An operand is expected outside every frame. -/
theorem expectOperand
    (made : reader.MadeOf allowed)
    {purpose : Purpose}
    (purposeMade : purpose.MadeOf allowed) :
    { reader with mode := .operand purpose [] }.MadeOf allowed :=
  made.expect ⟨purposeMade, List.forall_mem_nil _⟩

/-- A statement is complete in the given clauses. -/
theorem completeIn
    (made : reader.MadeOf allowed)
    {statement : Stmt}
    {clauses : List Clause}
    (statementMade : statement.MadeOf allowed)
    (clausesMade : ∀ clause ∈ clauses, clause.MadeOf allowed) :
    (reader.completeIn statement clauses).MadeOf allowed := by
  induction clauses generalizing statement with
  | nil =>
      exact ⟨made.before, made.around, List.forall_mem_cons.mpr ⟨statementMade, made.done⟩, nofun,
        trivial⟩
  | cons clause outer inductionHypothesis =>
      rw [List.forall_mem_cons] at clausesMade
      cases clause with
      | ifThen condition =>
          exact ⟨made.before, made.around, made.done, clausesMade.2, clausesMade.1, statementMade⟩
      | _ => exact inductionHypothesis (clausesMade.1.fill statementMade) clausesMade.2

/-- The statement that was being read is complete. -/
theorem complete
    (made : reader.MadeOf allowed)
    {statement : Stmt}
    (statementMade : statement.MadeOf allowed) :
    (reader.complete statement).MadeOf allowed :=
  made.completeIn statementMade made.clauses

/-- A declaration or an expression statement is complete at its place. -/
theorem completeAt
    (made : reader.MadeOf allowed)
    {statement : Stmt}
    (statementMade : statement.MadeOf allowed)
    (place : Place) :
    (reader.completeAt statement place).MadeOf allowed := by
  cases place with
  | alone => exact made.complete statementMade
  | loopHeader =>
      refine made.expect fun first isFirst => ?_
      cases isFirst
      exact statementMade

/-- No alternative follows. -/
theorem settle
    (made : reader.MadeOf allowed)
    {statement : Stmt}
    (statementMade : statement.MadeOf allowed) :
    (reader.settle statement).MadeOf allowed := by
  have filled := Clause.madeOf_foldl_fill made.clauses statementMade
  exact ⟨made.before, made.around, List.forall_mem_cons.mpr ⟨filled, made.done⟩, nofun, trivial⟩

/-- A clause awaits its statement. -/
theorem await
    (made : reader.MadeOf allowed)
    {clause : Clause}
    (clauseMade : clause.MadeOf allowed) :
    (reader.await clause).MadeOf allowed :=
  ⟨made.before, made.around, made.done, List.forall_mem_cons.mpr ⟨clauseMade, made.clauses⟩,
    trivial⟩

/-- The innermost block ends. -/
theorem closedBy?
    (made : reader.MadeOf allowed)
    {closed : Reader}
    {token : Token}
    (closes : reader.closedBy? token = some closed) :
    closed.MadeOf allowed := by
  unfold Reader.closedBy? at closes
  split at closes
  · rename_i block outer _ opened
    cases closes
    have before := made.before
    have around := made.around
    rw [opened, List.forall_mem_cons] at before around
    let outside : Reader := { reader with outer, done := block.before, clauses := block.clauses }
    have outsideMade : (outside.inMode .declaration).MadeOf allowed :=
      ⟨before.2, around.2, before.1, around.1, trivial⟩
    have blockMade : (Stmt.block reader.done.reverse).MadeOf allowed :=
      .block fun statement isDone => made.done statement (List.mem_reverse.mp isDone)
    have completed := outsideMade.complete blockMade
    rwa [complete_inMode] at completed
  · cases closes

/-- A token is rejected, whatever is dropped. -/
theorem reject
    (made : reader.MadeOf allowed)
    (token : Token)
    (fault : GrammarFault) :
    (reader.reject token fault).MadeOf allowed := by
  have recorded : (reader.record { token, fault }).MadeOf allowed := made.withErrors _
  unfold Reader.reject
  dsimp only
  split
  · rename_i closed closes
    exact recorded.closedBy? closes
  · refine ⟨recorded.before, recorded.around, recorded.done, nofun, ?_⟩
    dsimp only
    split <;> trivial

variable {token : Token}

/-- A token where an operand is expected. -/
theorem feedOperand
    (made : reader.MadeOf allowed)
    (allows : allowed token)
    {purpose : Purpose}
    {frames : List Frame}
    (purposeMade : purpose.MadeOf allowed)
    (framesMade : ∀ frame ∈ frames, frame.MadeOf allowed) :
    (reader.feedOperand purpose frames token).MadeOf allowed := by
  unfold Reader.feedOperand
  split
  case h_1 => exact made.expect ⟨purposeMade, framesMade, .truth false⟩
  case h_2 => exact made.expect ⟨purposeMade, framesMade, .truth true⟩
  case h_3 => exact made.expect ⟨purposeMade, framesMade, .nothing⟩
  case h_4 isNumber =>
    exact made.expect ⟨purposeMade, framesMade, .literal allows (.inl isNumber)⟩
  case h_5 isString =>
    exact made.expect ⟨purposeMade, framesMade, .literal allows (.inr isString)⟩
  case h_6 isName => exact made.expect ⟨purposeMade, framesMade, .lookup allows isName⟩
  case h_7 =>
    exact made.expect ⟨purposeMade, List.forall_mem_cons.mpr ⟨trivial, framesMade⟩⟩
  case h_8 =>
    split
    · rename_i operator signed
      exact made.expect
        ⟨purposeMade, List.forall_mem_cons.mpr ⟨⟨allows, signed⟩, framesMade⟩⟩
    · exact made.reject token _

/-- A token behind an expression outside every bracket. -/
theorem feedPurpose
    (made : reader.MadeOf allowed)
    {purpose : Purpose}
    {expr : Expr}
    (purposeMade : purpose.MadeOf allowed)
    (exprMade : expr.MadeOf allowed) :
    (reader.feedPurpose expr token purpose).MadeOf allowed := by
  have isMade : ∀ value ∈ some expr, value.MadeOf allowed := by
    rintro value ⟨⟩
    exact exprMade
  unfold Reader.feedPurpose
  split
  · exact made.complete (.print exprMade)
  · exact made.completeAt (.expression exprMade) _
  · exact made.completeAt (.declare purposeMade.1 purposeMade.2 isMade) _
  · exact made.await exprMade
  · exact made.await exprMade
  · exact made.expect ⟨purposeMade, isMade⟩
  · exact made.await ⟨purposeMade.1, purposeMade.2, isMade⟩
  · exact made.reject token _

/-- A token that ends an expression. -/
theorem feedClosing
    (made : reader.MadeOf allowed)
    {purpose : Purpose}
    {expr : Expr}
    {frames : List Frame}
    (purposeMade : purpose.MadeOf allowed)
    (exprMade : expr.MadeOf allowed)
    (framesMade : ∀ frame ∈ frames, frame.MadeOf allowed) :
    (reader.feedClosing purpose expr token frames).MadeOf allowed := by
  unfold Reader.feedClosing
  split
  · rw [List.forall_mem_cons] at framesMade
    split
    · exact made.expect ⟨purposeMade, framesMade.2, .group exprMade⟩
    · exact made.reject token _
  · rw [List.forall_mem_cons] at framesMade
    split
    · exact made.expect
        ⟨purposeMade, List.forall_mem_cons.mpr ⟨⟨framesMade.1, exprMade⟩, framesMade.2⟩⟩
    · exact made.reject token _
  · exact made.feedPurpose purposeMade exprMade

/-- A token where an operator is expected. -/
theorem feedOperator
    (made : reader.MadeOf allowed)
    (allows : allowed token)
    {purpose : Purpose}
    {frames : List Frame}
    {operand : Expr}
    (purposeMade : purpose.MadeOf allowed)
    (framesMade : ∀ frame ∈ frames, frame.MadeOf allowed)
    (operandMade : operand.MadeOf allowed) :
    (reader.feedOperator purpose frames operand token).MadeOf allowed := by
  obtain ⟨exprMade, outerMade⟩ :=
    madeOf_collapse (stopLevel token.kind) reader.errors operandMade framesMade
  rw [feedOperator_eq, collapseTo]
  generalize collapse (stopLevel token.kind) reader.errors operand frames = collapsed at *
  have noted := made.withErrors collapsed.errors
  unfold afterCollapse
  split
  · rename_i operator signed
    exact noted.expect
      ⟨purposeMade, List.forall_mem_cons.mpr ⟨⟨allows, signed, exprMade⟩, outerMade⟩⟩
  · split
    · exact noted.expect ⟨purposeMade, List.forall_mem_cons.mpr ⟨exprMade, outerMade⟩⟩
    · exact noted.expect ⟨purposeMade, List.forall_mem_cons.mpr ⟨exprMade, outerMade⟩⟩
    · exact noted.feedClosing purposeMade exprMade outerMade

/-- The first token of a statement. -/
theorem feedStatement
    (made : reader.MadeOf allowed)
    (allows : allowed token) :
    (reader.feedStatement token).MadeOf allowed := by
  -- Leaving a loop is apart: outside of loops it is noted as an error and read all the same.
  by_cases isBreak : token.kind = .keyword .breakWord
  · rw [feedStatement_break reader isBreak]
    exact (made.withErrors _).expect ⟨allows, isBreak⟩
  · unfold Reader.feedStatement
    split
    case h_3 => exact made.expectOperand trivial
    case h_5 begins => exact (isBreak begins).elim
    case h_6 =>
      exact ⟨List.forall_mem_cons.mpr ⟨made.done, made.before⟩,
        List.forall_mem_cons.mpr ⟨made.clauses, made.around⟩, nofun, nofun, trivial⟩
    case h_7 => exact made.feedOperand allows trivial (List.forall_mem_nil _)
    all_goals exact made.expect trivial

/-- The first token of a declaration, or the end of a block. -/
theorem feedDeclaration
    (made : reader.MadeOf allowed)
    (allows : allowed token) :
    (reader.feedDeclaration token).MadeOf allowed := by
  unfold Reader.feedDeclaration
  split
  · rename_i closed closes
    exact made.closedBy? closes
  · split
    · exact made.expect trivial
    · exact made.feedStatement allows

/-- A token while reading looks for the next statement. -/
theorem feedSkipping
    (made : reader.MadeOf allowed)
    (allows : allowed token) :
    (reader.feedSkipping token).MadeOf allowed := by
  unfold Reader.feedSkipping
  split
  · rename_i closed closes
    exact made.closedBy? closes
  · split
    · exact made.feedDeclaration allows
    · split
      · exact made.expect trivial
      · exact made

/-- Every allowed token keeps to allowed tokens. -/
theorem feed
    (made : reader.MadeOf allowed)
    (allows : allowed token) :
    (reader.feed token).MadeOf allowed := by
  have held := made.mode
  unfold Reader.feed
  cases expects : reader.mode with
  | declaration => exact made.feedDeclaration allows
  | statement => exact made.feedStatement allows
  | afterThen condition thenBranch =>
      rw [expects] at held
      dsimp only
      split
      · exact made.await held
      · exact (made.settle (.ifThen held.1 held.2)).feedDeclaration allows
  | header begun =>
      dsimp only
      split
      · cases begun with
        | forHeader => exact made.expect trivial
        | _ => exact made.expectOperand trivial
      · exact made.reject token _
  | name place =>
      dsimp only
      split
      · rename_i isName
        exact made.expect ⟨allows, isName⟩
      · exact made.reject token _
  | afterName place name =>
      rw [expects] at held
      dsimp only
      split
      · exact made.expectOperand held
      · exact made.completeAt (.declare held.1 held.2 (by simp)) place
      · exact made.reject token _
  | forInitial =>
      dsimp only
      split
      · exact made.expect (by simp [Mode.MadeOf])
      · exact made.expect trivial
      · exact made.feedOperand allows trivial (List.forall_mem_nil _)
  | forCondition initial =>
      rw [expects] at held
      dsimp only
      split
      · exact made.expect ⟨held, by simp⟩
      · exact made.feedOperand allows held (List.forall_mem_nil _)
  | forStep initial condition =>
      rw [expects] at held
      dsimp only
      split
      · exact made.await ⟨held.1, held.2, by simp⟩
      · exact made.feedOperand allows held (List.forall_mem_nil _)
  | leave word =>
      rw [expects] at held
      dsimp only
      split
      · exact made.complete (.leave held.1 held.2)
      · exact made.reject token _
  | operand purpose frames =>
      rw [expects] at held
      exact made.feedOperand allows held.1 held.2
  | operator purpose frames operand =>
      rw [expects] at held
      exact made.feedOperator allows held.1 held.2.1 held.2.2
  | skipping => exact made.feedSkipping allows

/-- The end of the input. -/
theorem endStatement
    (made : reader.MadeOf allowed)
    (allows : allowed token) :
    (reader.endStatement token).MadeOf allowed := by
  have held := made.mode
  unfold Reader.endStatement
  split
  · exact made
  · exact made
  · rename_i condition thenBranch expects
    rw [expects] at held
    exact made.settle (.ifThen held.1 held.2)
  · exact made.feed allows

/-- The statements completed outside every open block. -/
theorem kept
    (made : reader.MadeOf allowed) :
    ∀ statement ∈ reader.kept, statement.MadeOf allowed := by
  unfold Reader.kept
  split
  · rename_i outermost isLast
    exact made.before outermost (List.mem_of_getLast? isLast)
  · exact made.done

/-- The statements that are read off allowed tokens. -/
theorem read
    (made : reader.MadeOf allowed)
    {tokens : List Token}
    (allow : ∀ token ∈ tokens, allowed token) :
    ∀ statement ∈ (reader.read tokens).statements, statement.MadeOf allowed := by
  intro statement isKept
  induction tokens generalizing reader with
  | nil =>
      exact made.kept statement (List.mem_reverse.mp isKept)
  | cons token tokens inductionHypothesis =>
      rw [List.forall_mem_cons] at allow
      rw [Reader.read] at isKept
      split at isKept
      · exact (made.endStatement allow.1).kept statement (List.mem_reverse.mp isKept)
      · exact inductionHypothesis (made.feed allow.1) allow.2 isKept

end MadeOf

end Reader

/-- Every statement that is read off allowed tokens is made of them, errors or not. -/
theorem Program.madeOf_ofTokens
    {tokens : List Token}
    (allow : ∀ token ∈ tokens, allowed token) :
    ∀ statement ∈ (ofTokens tokens).statements, statement.MadeOf allowed :=
  Reader.madeOf_start.read allow

end BlockScript
