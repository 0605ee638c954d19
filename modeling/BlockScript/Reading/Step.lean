import BlockScript.Reading.Pending

namespace BlockScript.Reader

/-!
# Reading one token

`Reader.feed` takes the next token.  A token that cannot stand where it does is
blamed and taken, the statement that was being read is dropped, and reading
resumes behind the next semicolon or before the next word that begins a
statement.  The brace that closes the innermost block is never passed over.
-/

/-- Record an error. -/
def record
    (reader : Reader)
    (error : GrammarError) :
    Reader :=
  { reader with errors := error :: reader.errors }

/--
A statement is complete.  Clauses that await nothing more are filled with it, up
to a conditional statement that may still have an alternative.
-/
def completeIn
    (reader : Reader)
    (complete : Stmt) :
    List Clause → Reader
  | [] =>
      { reader with done := complete :: reader.done, clauses := [], mode := .declaration }
  | .ifThen condition :: outer =>
      { reader with clauses := outer, mode := .afterThen condition complete }
  | clause :: outer => completeIn reader (clause.fill complete) outer

/-- The statement that was being read is complete. -/
def complete
    (reader : Reader)
    (statement : Stmt) :
    Reader :=
  reader.completeIn statement reader.clauses

/-- No alternative follows, so that every clause is filled. -/
def settle
    (reader : Reader)
    (complete : Stmt) :
    Reader :=
  { reader with
    done := reader.clauses.foldl Clause.fill complete :: reader.done
    clauses := []
    mode := .declaration }

/-- The innermost block ends at a closing brace. -/
def closedBy?
    (reader : Reader)
    (token : Token) :
    Option Reader :=
  match token.kind, reader.outer with
  | .mark .rightBrace, block :: outer =>
      some
        ({ reader with outer, done := block.before, clauses := block.clauses }.complete
          (.block reader.done.reverse))
  | _, _ => none

/-- Blame a token, drop the statement that was being read and look for the next one. -/
def reject
    (reader : Reader)
    (token : Token)
    (fault : GrammarFault) :
    Reader :=
  let blamed := reader.record { token, fault }
  match blamed.closedBy? token with
  | some closed => closed
  | none =>
      { blamed with
        clauses := []
        mode := if token.kind = .mark .semicolon then .declaration else .skipping }

/-- A declaration or an expression statement is complete. -/
def completeAt
    (reader : Reader)
    (statement : Stmt) :
    Place → Reader
  | .alone => reader.complete statement
  | .loopHeader => { reader with mode := .forCondition (some statement) }

/-- The header of a clause is complete, and the clause awaits a statement. -/
def await
    (reader : Reader)
    (clause : Clause) :
    Reader :=
  { reader with clauses := clause :: reader.clauses, mode := .statement }

/-- The token where an operand is expected. -/
def feedOperand
    (reader : Reader)
    (purpose : Purpose)
    (frames : List Frame)
    (token : Token) :
    Reader :=
  let found (operand : Expr) : Reader :=
    { reader with mode := .operator purpose frames operand }
  match token.kind with
  | .keyword .falseWord => found (.literal (.bool false))
  | .keyword .trueWord => found (.literal (.bool true))
  | .keyword .nilWord => found (.literal .nil)
  | .number => found (.literal token.literal)
  | .string => found (.literal token.literal)
  | .identifier => found (.lookup token)
  | .mark .leftParen => { reader with mode := .operand purpose (.group :: frames) }
  | kind =>
      match UnaryOperator.ofKind? kind with
      | some operator =>
          { reader with mode := .operand purpose (.unary token operator :: frames) }
      | none => reader.reject token .expectExpression

/-- The token behind an expression outside every bracket. -/
def feedPurpose
    (reader : Reader)
    (expr : Expr)
    (token : Token)
    (purpose : Purpose) :
    Reader :=
  match purpose, token.kind with
  | .print, .mark .semicolon => reader.complete (.print expr)
  | .statement place, .mark .semicolon => reader.completeAt (.expression expr) place
  | .initial place name, .mark .semicolon => reader.completeAt (.declare name (some expr)) place
  | .ifCondition, .mark .rightParen => reader.await (.ifThen expr)
  | .whileCondition, .mark .rightParen => reader.await (.whileBody expr)
  | .forCondition initial, .mark .semicolon =>
      { reader with mode := .forStep initial (some expr) }
  | .forStep initial condition, .mark .rightParen =>
      reader.await (.forBody initial condition (some expr))
  | purpose, _ => reader.reject token purpose.fault

/-- The token that ends an expression, which the innermost bracket or the purpose must allow. -/
def feedClosing
    (reader : Reader)
    (purpose : Purpose)
    (expr : Expr)
    (token : Token) :
    List Frame → Reader
  | .group :: outer =>
      if token.kind = .mark .rightParen then
        { reader with mode := .operator purpose outer (.group expr) }
      else
        reader.reject token .expectParenAfterExpression
  | .choice condition :: outer =>
      if token.kind = .mark .colon then
        { reader with mode := .operand purpose (.otherwise condition expr :: outer) }
      else
        reader.reject token .expectColonAfterThenValue
  | _ => reader.feedPurpose expr token purpose

/-- Fill the frames that a token of the given level ends, and go on with the expression so made. -/
def collapseTo
    (reader : Reader)
    (level : Level)
    (frames : List Frame)
    (operand : Expr)
    (next : Reader → Expr → List Frame → Reader) :
    Reader :=
  let collapsed := collapse level reader.errors operand frames
  next { reader with errors := collapsed.errors } collapsed.expr collapsed.frames

/-- The token where an operator is expected. -/
def feedOperator
    (reader : Reader)
    (purpose : Purpose)
    (frames : List Frame)
    (operand : Expr)
    (token : Token) :
    Reader :=
  match BinaryOperator.ofKind? token.kind with
  | some operator =>
      reader.collapseTo operator.level frames operand fun reader left outer =>
        { reader with mode := .operand purpose (.binary token operator left :: outer) }
  | none =>
      match token.kind with
      | .mark .question =>
          reader.collapseTo .equality frames operand fun reader condition outer =>
            { reader with mode := .operand purpose (.choice condition :: outer) }
      | .mark .equal =>
          reader.collapseTo .conditional frames operand fun reader target outer =>
            { reader with mode := .operand purpose (.assign target token :: outer) }
      | _ =>
          reader.collapseTo .comma frames operand fun reader expr outer =>
            reader.feedClosing purpose expr token outer

/-- The first token of a statement. -/
def feedStatement
    (reader : Reader)
    (token : Token) :
    Reader :=
  match token.kind with
  | .keyword .forWord => { reader with mode := .header .forHeader }
  | .keyword .ifWord => { reader with mode := .header .ifHeader }
  | .keyword .printWord => { reader with mode := .operand .print [] }
  | .keyword .whileWord => { reader with mode := .header .whileHeader }
  | .keyword .breakWord =>
      let blamed :=
        if reader.inLoop then reader else reader.record { token, fault := .breakOutsideLoop }
      { blamed with mode := .leave token }
  | .mark .leftBrace =>
      { reader with
        outer := { before := reader.done, clauses := reader.clauses } :: reader.outer
        done := []
        clauses := []
        mode := .declaration }
  | _ => reader.feedOperand (.statement .alone) [] token

/-- The first token of a declaration or a statement of a block, or the end of the block. -/
def feedDeclaration
    (reader : Reader)
    (token : Token) :
    Reader :=
  match reader.closedBy? token with
  | some closed => closed
  | none =>
      if token.kind = .keyword .varWord then
        { reader with mode := .name .alone }
      else
        reader.feedStatement token

/-- Whether reading resumes before a token of this kind. -/
def resumesAt : Kind → Bool
  | .keyword .classWord
  | .keyword .funWord
  | .keyword .varWord
  | .keyword .forWord
  | .keyword .ifWord
  | .keyword .whileWord
  | .keyword .printWord
  | .keyword .returnWord
  | .keyword .breakWord => true
  | _ => false

/-- A token while reading looks for the next statement. -/
def feedSkipping
    (reader : Reader)
    (token : Token) :
    Reader :=
  match reader.closedBy? token with
  | some closed => closed
  | none =>
      if resumesAt token.kind then
        reader.feedDeclaration token
      else if token.kind = .mark .semicolon then
        { reader with mode := .declaration }
      else
        reader

/-- Take the next token, which is not the end of the input. -/
def feed
    (reader : Reader)
    (token : Token) :
    Reader :=
  match reader.mode with
  | .declaration => reader.feedDeclaration token
  | .statement => reader.feedStatement token
  | .afterThen condition thenBranch =>
      if token.kind = .keyword .elseWord then
        reader.await (.ifElse condition thenBranch)
      else
        (reader.settle (.ifThen condition thenBranch)).feedDeclaration token
  | .header header =>
      if token.kind = .mark .leftParen then
        match header with
        | .ifHeader => { reader with mode := .operand .ifCondition [] }
        | .whileHeader => { reader with mode := .operand .whileCondition [] }
        | .forHeader => { reader with mode := .forInitial }
      else
        reader.reject token header.fault
  | .name place =>
      if token.kind = .identifier then
        { reader with mode := .afterName place token }
      else
        reader.reject token .expectVariableName
  | .afterName place name =>
      match token.kind with
      | .mark .equal => { reader with mode := .operand (.initial place name) [] }
      | .mark .semicolon => reader.completeAt (.declare name none) place
      | _ => reader.reject token .expectSemicolonAfterDeclaration
  | .forInitial =>
      match token.kind with
      | .mark .semicolon => { reader with mode := .forCondition none }
      | .keyword .varWord => { reader with mode := .name .loopHeader }
      | _ => reader.feedOperand (.statement .loopHeader) [] token
  | .forCondition initial =>
      if token.kind = .mark .semicolon then
        { reader with mode := .forStep initial none }
      else
        reader.feedOperand (.forCondition initial) [] token
  | .forStep initial condition =>
      if token.kind = .mark .rightParen then
        reader.await (.forBody initial condition none)
      else
        reader.feedOperand (.forStep initial condition) [] token
  | .leave word =>
      if token.kind = .mark .semicolon then
        reader.complete (.leave word)
      else
        reader.reject token .expectSemicolonAfterBreak
  | .operand purpose frames => reader.feedOperand purpose frames token
  | .operator purpose frames operand => reader.feedOperator purpose frames operand token
  | .skipping => reader.feedSkipping token

end BlockScript.Reader
