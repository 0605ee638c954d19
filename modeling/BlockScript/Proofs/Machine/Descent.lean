import BlockScript.Reading.Program
import BlockScript.Proofs.Grammar.Derivation
import BlockScript.Proofs.Machine.Node

namespace BlockScript.Machine

/-!
# Descending through the grammar

The machine reads a program by one procedure for each construct of the grammar.
A cursor moves over the list of tokens; the token at the cursor and the one before
it are looked at without asking whether there is one.  A procedure ends with a
node or with a grammar error, which the innermost list of declarations takes up:
it notes the error and moves the cursor to where a statement may begin.
-/

/-- Where the cursor stands, the loops and blocks around it, and the errors noted so far. -/
structure Cursor where
  position : Nat
  loopDepth : Nat
  blockDepth : Nat
  errors : List GrammarError
  deriving Repr, DecidableEq

/-- A procedure that moves the cursor, and may end with a grammar error. -/
abbrev Descent := ExceptT GrammarError (StateT Cursor (ExceptT Misstep Option))

/-- A procedure comes to an end without a misstep, and leaves the cursor as given. -/
def Descent.Comes
    {α : Type}
    (procedure : Descent α)
    (cursor : Cursor)
    (outcome : Except GrammarError α)
    (after : Cursor) :
    Prop :=
  procedure.run.run cursor = some (.ok (outcome, after))

/-- A procedure comes to the same end however deep it may go from some depth on. -/
def Descent.Settles
    {α : Type}
    (procedure : Nat → Descent α)
    (cursor : Cursor)
    (outcome : Except GrammarError α)
    (after : Cursor) :
    Prop :=
  FromSomeDepth fun fuel => Comes (procedure fuel) cursor outcome after

namespace Descent

/-- The outcome of a procedure that may not go deeper: there is none. -/
def exhausted
    {α : Type} :
    Descent α :=
  fun _ => none

/-- What a part of the machine gives, unless it takes a misstep. -/
def lift
    {α : Type}
    (result : Except Misstep α) :
    Descent α :=
  fun cursor =>
    match result with
    | .ok value => some (.ok (.ok value, cursor))
    | .error misstep => some (.error misstep)

/-- Note an error and go on. -/
def note
    (error : GrammarError) :
    Descent Unit :=
  fun cursor => some (.ok (.ok (), { cursor with errors := cursor.errors ++ [error] }))

/-- Move the cursor behind the next token. -/
def move : Descent Unit :=
  fun cursor => some (.ok (.ok (), { cursor with position := cursor.position + 1 }))

variable (tokens : List Token)

/-- The token at the cursor. -/
def peek : Descent Token := do
  match tokens[(← get).position]? with
  | some token => pure token
  | none => lift (.error .beyondTokens)

/-- The token before the cursor. -/
def prev : Descent Token := do
  match (← get).position with
  | 0 => lift (.error .beforeTokens)
  | position + 1 =>
      match tokens[position]? with
      | some token => pure token
      | none => lift (.error .beyondTokens)

/-- Whether the cursor stands at an end token. -/
def isEnd : Descent Bool := do
  let next ← peek tokens
  pure (next.kind = .endOfInput)

/-- Whether the cursor stands at a token of the given kind. -/
def check
    (kind : Kind) :
    Descent Bool := do
  if ← isEnd tokens then
    pure false
  else
    let next ← peek tokens
    pure (next.kind = kind)

/-- Move on unless the cursor stands at an end token; the token before the cursor. -/
def advance : Descent Token := do
  if ← isEnd tokens then
    prev tokens
  else
    move
    prev tokens

/-- Take the next token if it is of one of the given kinds. -/
def accept : List Kind → Descent Bool
  | [] => pure false
  | kind :: others => do
      if ← check tokens kind then
        let _ ← advance tokens
        pure true
      else
        accept others

/-- Take the next token, which must be of the given kind. -/
def expect
    (kind : Kind)
    (fault : GrammarFault) :
    Descent Token := do
  if ← check tokens kind then
    advance tokens
  else
    let next ← peek tokens
    throw { token := next, fault }

/-- Move on to where a statement may begin. -/
def skip : Nat → Descent Unit
  | 0 => exhausted
  | fuel + 1 => do
      if ← isEnd tokens then
        pure ()
      else
        let passed ← prev tokens
        if passed.kind = .mark .semicolon then
          pure ()
        else
          let next ← peek tokens
          let cursor ← get
          if Reader.resumesAt next.kind then
            pure ()
          else if next.kind = .mark .rightBrace ∧ 0 < cursor.blockDepth then
            pure ()
          else
            let _ ← advance tokens
            skip fuel

/-- Whether the cursor stands at the brace that closes the innermost block. -/
def closesBlock : Descent Bool := do
  let cursor ← get
  if 0 < cursor.blockDepth then
    check tokens (.mark .rightBrace)
  else
    pure false

/-- Recover from an error: the brace that closes the innermost block is not passed over. -/
def recover
    (fuel : Nat) :
    Descent Unit := do
  if ← closesBlock tokens then
    pure ()
  else
    let _ ← advance tokens
    skip tokens fuel

/-- An assignment; what is not a name keeps its place, and the equals sign is blamed. -/
def assigned
    (equals : Token)
    (value : ExprNode) :
    ExprNode → Descent ExprNode
  | .lookup name => pure (.assign name value)
  | target => do
      note { token := equals, fault := .invalidAssignmentTarget }
      pure target

mutual

/-- An expression whose operators are of at least the given level. -/
def expression
    (level : Level) :
    Nat → Descent ExprNode
  | 0 => exhausted
  | fuel + 1 => do
      match level with
      | .assignment =>
          let target ← expression .conditional fuel
          if ← accept tokens [.mark .equal] then
            let equals ← prev tokens
            let value ← expression .assignment fuel
            assigned equals value target
          else
            pure target
      | .conditional =>
          let condition ← expression .equality fuel
          if ← accept tokens [.mark .question] then
            let thenValue ← expression .comma fuel
            let _ ← expect tokens (.mark .colon) .expectColonAfterThenValue
            let elseValue ← expression .conditional fuel
            pure (.conditional condition thenValue elseValue)
          else
            pure condition
      | .unary =>
          if ← accept tokens [.mark .bang, .mark .minus] then
            let sign ← prev tokens
            let operand ← expression .unary fuel
            lift (ExprNode.ofUnary sign operand)
          else
            primary fuel
      | level =>
          let left ← expression (Grammar.tighter level) fuel
          operations level left fuel

/-- The operators of a level behind an operand, and their right operands. -/
def operations
    (level : Level)
    (left : ExprNode) :
    Nat → Descent ExprNode
  | 0 => exhausted
  | fuel + 1 => do
      if ← accept tokens ((Grammar.signs level).map .mark) then
        let sign ← prev tokens
        let right ← expression (Grammar.tighter level) fuel
        let whole ← lift (ExprNode.ofBinary sign left right)
        operations level whole fuel
      else
        pure left

/-- An expression without operators outside parentheses. -/
def primary : Nat → Descent ExprNode
  | 0 => exhausted
  | fuel + 1 => do
      if ← accept tokens [.keyword .falseWord] then
        pure (.literal (.bool false))
      else if ← accept tokens [.keyword .trueWord] then
        pure (.literal (.bool true))
      else if ← accept tokens [.keyword .nilWord] then
        pure (.literal .nil)
      else if ← accept tokens [.number, .string] then
        let token ← prev tokens
        pure (.literal token.literal.datum)
      else if ← accept tokens [.identifier] then
        let name ← prev tokens
        pure (.lookup name)
      else if ← accept tokens [.mark .leftParen] then
        let inner ← expression .comma fuel
        let _ ← expect tokens (.mark .rightParen) .expectParenAfterExpression
        pure (.group inner)
      else
        let next ← peek tokens
        throw { token := next, fault := .expectExpression }

end

/-- An expression statement. -/
def expressionStatement
    (fuel : Nat) :
    Descent StmtNode := do
  let value ← expression tokens .comma fuel
  let _ ← expect tokens (.mark .semicolon) .expectSemicolonAfterExpression
  pure (.expression value)

/-- A print statement behind its word. -/
def printStatement
    (fuel : Nat) :
    Descent StmtNode := do
  let value ← expression tokens .comma fuel
  let _ ← expect tokens (.mark .semicolon) .expectSemicolonAfterValue
  pure (.print value)

/-- Note a word that leaves a loop outside every loop. -/
def noteOutsideLoop
    (word : Token) :
    Descent Unit := do
  let cursor ← get
  if cursor.loopDepth = 0 then
    note { token := word, fault := .breakOutsideLoop }
  else
    pure ()

/-- The rest of a statement that leaves a loop; its word is before the cursor. -/
def leaveStatement : Descent StmtNode := do
  let word ← prev tokens
  noteOutsideLoop word
  let _ ← expect tokens (.mark .semicolon) .expectSemicolonAfterBreak
  pure (.leave word)

/-- The value of a declaration, which may be left out. -/
def initialValue
    (fuel : Nat) :
    Descent ExprNode := do
  if ← accept tokens [.mark .equal] then
    expression tokens .comma fuel
  else
    pure .missing

/-- A declaration behind its word. -/
def variableDeclaration
    (fuel : Nat) :
    Descent StmtNode := do
  let name ← expect tokens .identifier .expectVariableName
  let initial ← initialValue tokens fuel
  let _ ← expect tokens (.mark .semicolon) .expectSemicolonAfterDeclaration
  pure (.declare name initial)

/-- The first part of the header of a counting loop. -/
def forInitial
    (fuel : Nat) :
    Descent StmtNode := do
  if ← accept tokens [.mark .semicolon] then
    pure .missing
  else if ← accept tokens [.keyword .varWord] then
    variableDeclaration tokens fuel
  else
    expressionStatement tokens fuel

/-- An expression unless the given kind of token is next. -/
def expressionUnless
    (kind : Kind)
    (fuel : Nat) :
    Descent ExprNode := do
  if ← check tokens kind then
    pure .missing
  else
    expression tokens .comma fuel

/-- An expression that may be left out, and the token behind it. -/
def optionalBefore
    (kind : Kind)
    (fault : GrammarFault)
    (fuel : Nat) :
    Descent ExprNode := do
  let value ← expressionUnless tokens kind fuel
  let _ ← expect tokens kind fault
  pure value

end Descent

/-- The condition of a counting loop; one that is left out always holds. -/
def ExprNode.orTrue : ExprNode → ExprNode
  | .missing => .literal (.bool true)
  | condition => condition

/-- The step of a counting loop as statements. -/
def ExprNode.steps : ExprNode → List StmtNode
  | .missing => []
  | step => [.expression step]

/-- The statements at a place, which may be none. -/
def StmtNode.present : StmtNode → List StmtNode
  | .missing => []
  | statement => [statement]

/-- A counting loop in terms of the others; parts may be left out. -/
def StmtNode.forLoop
    (initial : StmtNode)
    (condition step : ExprNode)
    (body : StmtNode) :
    StmtNode :=
  .block (initial.present ++ [.loop condition.orTrue (.block (body :: step.steps))])

namespace Descent

variable (tokens : List Token)

/-- Whether the cursor stands where the declarations of a block end. -/
def endsBlock : Descent Bool := do
  if ← check tokens (.mark .rightBrace) then
    pure true
  else
    isEnd tokens

/-- Note the error of a statement, which is dropped, and recover from it. -/
def dropAfter
    (error : GrammarError)
    (fuel : Nat) :
    Descent (List StmtNode) := do
  note error
  recover tokens fuel
  pure []

mutual

/-- A statement. -/
def statement : Nat → Descent StmtNode
  | 0 => exhausted
  | fuel + 1 => do
      if ← accept tokens [.keyword .forWord] then
        forStatement fuel
      else if ← accept tokens [.keyword .ifWord] then
        ifStatement fuel
      else if ← accept tokens [.keyword .printWord] then
        printStatement tokens fuel
      else if ← accept tokens [.keyword .whileWord] then
        whileStatement fuel
      else if ← accept tokens [.keyword .breakWord] then
        leaveStatement tokens
      else if ← accept tokens [.mark .leftBrace] then
        let body ← block fuel
        pure (.block body)
      else
        expressionStatement tokens fuel

/-- A counting loop behind its word. -/
def forStatement : Nat → Descent StmtNode
  | 0 => exhausted
  | fuel + 1 => do
      let _ ← expect tokens (.mark .leftParen) .expectParenAfterFor
      let initial ← forInitial tokens fuel
      let condition ←
        optionalBefore tokens (.mark .semicolon) .expectSemicolonAfterLoopCondition fuel
      let step ← optionalBefore tokens (.mark .rightParen) .expectParenAfterForClauses fuel
      let body ← loopBody fuel
      pure (.forLoop initial condition step body)

/-- A conditional statement behind its word; an `else` belongs to the nearest one. -/
def ifStatement : Nat → Descent StmtNode
  | 0 => exhausted
  | fuel + 1 => do
      let _ ← expect tokens (.mark .leftParen) .expectParenAfterIf
      let condition ← expression tokens .comma fuel
      let _ ← expect tokens (.mark .rightParen) .expectParenAfterIfCondition
      let thenBranch ← statement fuel
      if ← accept tokens [.keyword .elseWord] then
        let elseBranch ← statement fuel
        pure (.conditional condition thenBranch elseBranch)
      else
        pure (.conditional condition thenBranch .missing)

/-- A loop with a condition behind its word. -/
def whileStatement : Nat → Descent StmtNode
  | 0 => exhausted
  | fuel + 1 => do
      let _ ← expect tokens (.mark .leftParen) .expectParenAfterWhile
      let condition ← expression tokens .comma fuel
      let _ ← expect tokens (.mark .rightParen) .expectParenAfterCondition
      let body ← loopBody fuel
      pure (.loop condition body)

/-- A statement in the body of a loop; the loop is left however the statement ends. -/
def loopBody : Nat → Descent StmtNode
  | 0 => exhausted
  | fuel + 1 => fun cursor => do
      let (result, after) ←
        (statement fuel).run.run { cursor with loopDepth := cursor.loopDepth + 1 }
      pure (result, { after with loopDepth := after.loopDepth - 1 })

/-- A block behind its opening brace; the block is left however it ends. -/
def block : Nat → Descent (List StmtNode)
  | 0 => exhausted
  | fuel + 1 => fun cursor => do
      let (result, after) ←
        (blockRest [] fuel).run.run { cursor with blockDepth := cursor.blockDepth + 1 }
      pure (result, { after with blockDepth := after.blockDepth - 1 })

/-- The declarations of a block behind those already read, and its closing brace. -/
def blockRest
    (done : List StmtNode) :
    Nat → Descent (List StmtNode)
  | 0 => exhausted
  | fuel + 1 => do
      if ← endsBlock tokens then
        let _ ← expect tokens (.mark .rightBrace) .expectBraceAfterBlock
        pure done
      else
        let more ← declarationOrNone fuel
        blockRest (done ++ more) fuel

/-- A declaration or a statement of a list; after an error there is none. -/
def declarationOrNone : Nat → Descent (List StmtNode)
  | 0 => exhausted
  | fuel + 1 => fun cursor => do
      match ← (declaration fuel).run.run cursor with
      | (.ok statement, after) => pure (.ok [statement], after)
      | (.error error, after) => (dropAfter tokens error fuel).run.run after

/-- A declaration or a statement. -/
def declaration : Nat → Descent StmtNode
  | 0 => exhausted
  | fuel + 1 => do
      if ← accept tokens [.keyword .varWord] then
        variableDeclaration tokens fuel
      else
        statement fuel

end

/-- The declarations of a program behind those already read, up to an end token. -/
def program
    (done : List StmtNode) :
    Nat → Descent (List StmtNode)
  | 0 => exhausted
  | fuel + 1 => do
      if ← isEnd tokens then
        pure done
      else
        let more ← declarationOrNone tokens fuel
        program (done ++ more) fuel

end Descent

/-- The statements of a program, and the errors found in it. -/
def parse
    (tokens : List Token)
    (fuel : Nat) :
    ExceptT Misstep Option (List StmtNode × List GrammarError) := do
  let start : Cursor := { position := 0, loopDepth := 0, blockDepth := 0, errors := [] }
  match ← (Descent.program tokens [] fuel).run.run start with
  | (.ok statements, cursor) => pure (statements, cursor.errors)
  | (.error error, cursor) => pure ([], cursor.errors ++ [error])

end BlockScript.Machine
