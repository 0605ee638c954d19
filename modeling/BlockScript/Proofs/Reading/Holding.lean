import BlockScript.Proofs.Reading.Bodies
import BlockScript.Proofs.Reading.Errors

namespace BlockScript.Grammar

open Reader

/-!
# What a reader holds

As long as no token has been rejected, the tokens taken are accounted for by
what the reader holds: complete statements are phrases, and every open block,
clause, purpose and frame is the beginning of a phrase.  Each part comes with
its tokens and its violations, outermost first.
-/

/-- The frames of an expression, with the tokens before the awaited operand. -/
inductive FramesHold : List Frame → List Token → List GrammarError → Prop where
  | nil :
      FramesHold [] [] []
  | group
      {outer : List Frame}
      {tokens : List Token}
      {errors : List GrammarError}
      {opening : Token}
      (around : FramesHold outer tokens errors)
      (opens : opening.kind = .mark .leftParen) :
      FramesHold (.group :: outer) (tokens ++ [opening]) errors
  | unary
      {outer : List Frame}
      {tokens : List Token}
      {errors : List GrammarError}
      {token : Token}
      {operator : UnaryOperator}
      (around : FramesHold outer tokens errors)
      (signed : UnaryOperator.ofKind? token.kind = some operator) :
      FramesHold (.unary token operator :: outer) (tokens ++ [token]) errors
  | binary
      {outer : List Frame}
      {tokens left : List Token}
      {errors leftErrors : List GrammarError}
      {token : Token}
      {operator : BinaryOperator}
      {leftExpr : Expr}
      (around : FramesHold outer tokens errors)
      (allows : Allows outer operator.level)
      (earlier : ExprPhrase operator.level left leftExpr leftErrors)
      (signed : BinaryOperator.ofKind? token.kind = some operator) :
      FramesHold (.binary token operator leftExpr :: outer)
        (tokens ++ (left ++ [token])) (errors ++ leftErrors)
  | assign
      {outer : List Frame}
      {tokens target : List Token}
      {errors targetErrors : List GrammarError}
      {equals : Token}
      {targetExpr : Expr}
      (around : FramesHold outer tokens errors)
      (allows : Allows outer .assignment)
      (assigned : ExprPhrase .conditional target targetExpr targetErrors)
      (assigns : equals.kind = .mark .equal) :
      FramesHold (.assign targetExpr equals :: outer)
        (tokens ++ (target ++ [equals])) (errors ++ targetErrors)
  | choice
      {outer : List Frame}
      {tokens condition : List Token}
      {errors conditionErrors : List GrammarError}
      {question : Token}
      {conditionExpr : Expr}
      (around : FramesHold outer tokens errors)
      (allows : Allows outer .conditional)
      (tested : ExprPhrase .equality condition conditionExpr conditionErrors)
      (asks : question.kind = .mark .question) :
      FramesHold (.choice conditionExpr :: outer)
        (tokens ++ (condition ++ [question])) (errors ++ conditionErrors)
  | otherwise
      {outer : List Frame}
      {tokens condition thenValue : List Token}
      {errors conditionErrors thenErrors : List GrammarError}
      {question colon : Token}
      {conditionExpr thenExpr : Expr}
      (around : FramesHold outer tokens errors)
      (allows : Allows outer .conditional)
      (tested : ExprPhrase .equality condition conditionExpr conditionErrors)
      (asks : question.kind = .mark .question)
      (chosen : ExprPhrase .comma thenValue thenExpr thenErrors)
      (separates : colon.kind = .mark .colon) :
      FramesHold (.otherwise conditionExpr thenExpr :: outer)
        (tokens ++ (condition ++ question :: (thenValue ++ [colon])))
        (errors ++ (conditionErrors ++ thenErrors))

/-- The header of a counting loop up to its first semicolon. -/
inductive ForInitialHolds : Option Stmt → List Token → List GrammarError → Prop where
  | header
      {word opening : Token}
      {tokens : List Token}
      {initial : Option Stmt}
      {errors : List GrammarError}
      (begins : word.kind = .keyword .forWord)
      (opens : opening.kind = .mark .leftParen)
      (first : InitialPhrase tokens initial errors) :
      ForInitialHolds initial (word :: opening :: tokens) errors

/-- The header of a counting loop up to its second semicolon. -/
inductive ForConditionHolds :
    Option Stmt → Option Expr → List Token → List GrammarError → Prop where
  | header
      {initial : Option Stmt}
      {condition : Option Expr}
      {before tokens : List Token}
      {errors conditionErrors : List GrammarError}
      {semicolon : Token}
      (first : ForInitialHolds initial before errors)
      (second : OptionalPhrase tokens condition conditionErrors)
      (separates : semicolon.kind = .mark .semicolon) :
      ForConditionHolds initial condition
        (before ++ (tokens ++ [semicolon])) (errors ++ conditionErrors)

/-- What stands before a declaration or an expression statement at its place. -/
inductive PlaceHolds : Place → List Token → Prop where
  | alone :
      PlaceHolds .alone []
  | loopHeader
      {word opening : Token}
      (begins : word.kind = .keyword .forWord)
      (opens : opening.kind = .mark .leftParen) :
      PlaceHolds .loopHeader [word, opening]

/-- What stands before an expression, by its purpose; clauses never hold a declaration. -/
inductive PurposeHolds (clauses : List Clause) :
    Purpose → List Token → List GrammarError → Prop where
  | print
      {word : Token}
      (begins : word.kind = .keyword .printWord) :
      PurposeHolds clauses .print [word] []
  | statement
      {place : Place}
      {tokens : List Token}
      (stands : PlaceHolds place tokens) :
      PurposeHolds clauses (.statement place) tokens []
  | initial
      {place : Place}
      {tokens : List Token}
      {word name equals : Token}
      (stands : PlaceHolds place tokens)
      (free : place = .alone → clauses = [])
      (begins : word.kind = .keyword .varWord)
      (named : name.kind = .identifier)
      (assigns : equals.kind = .mark .equal) :
      PurposeHolds clauses (.initial place name) (tokens ++ [word, name, equals]) []
  | ifCondition
      {word opening : Token}
      (begins : word.kind = .keyword .ifWord)
      (opens : opening.kind = .mark .leftParen) :
      PurposeHolds clauses .ifCondition [word, opening] []
  | whileCondition
      {word opening : Token}
      (begins : word.kind = .keyword .whileWord)
      (opens : opening.kind = .mark .leftParen) :
      PurposeHolds clauses .whileCondition [word, opening] []
  | forCondition
      {initial : Option Stmt}
      {tokens : List Token}
      {errors : List GrammarError}
      (first : ForInitialHolds initial tokens errors) :
      PurposeHolds clauses (.forCondition initial) tokens errors
  | forStep
      {initial : Option Stmt}
      {condition : Option Expr}
      {tokens : List Token}
      {errors : List GrammarError}
      (second : ForConditionHolds initial condition tokens errors) :
      PurposeHolds clauses (.forStep initial condition) tokens errors

/-- The word that begins a header. -/
def headerWord : Header → Keyword
  | .ifHeader => .ifWord
  | .whileHeader => .whileWord
  | .forHeader => .forWord

/-- What has been read of the innermost statement, by what is expected next. -/
inductive ModeHolds (inLoop : Bool) (clauses : List Clause) :
    Mode → List Token → List GrammarError → Prop where
  | declaration
      (free : clauses = []) :
      ModeHolds inLoop clauses .declaration [] []
  | statement :
      ModeHolds inLoop clauses .statement [] []
  | afterThen
      {word opening closing : Token}
      {condition thenBranch : List Token}
      {expr : Expr}
      {thenStmt : Stmt}
      {conditionErrors thenErrors : List GrammarError}
      (begins : word.kind = .keyword .ifWord)
      (opens : opening.kind = .mark .leftParen)
      (tested : ExprPhrase .comma condition expr conditionErrors)
      (closes : closing.kind = .mark .rightParen)
      (chosen : StatementPhrase inLoop .closed thenBranch thenStmt thenErrors) :
      ModeHolds inLoop clauses (.afterThen expr thenStmt)
        (word :: opening :: (condition ++ closing :: thenBranch)) (conditionErrors ++ thenErrors)
  | header
      {header : Header}
      {word : Token}
      (begins : word.kind = .keyword (headerWord header)) :
      ModeHolds inLoop clauses (.header header) [word] []
  | name
      {place : Place}
      {tokens : List Token}
      {word : Token}
      (stands : PlaceHolds place tokens)
      (free : place = .alone → clauses = [])
      (begins : word.kind = .keyword .varWord) :
      ModeHolds inLoop clauses (.name place) (tokens ++ [word]) []
  | afterName
      {place : Place}
      {tokens : List Token}
      {word name : Token}
      (stands : PlaceHolds place tokens)
      (free : place = .alone → clauses = [])
      (begins : word.kind = .keyword .varWord)
      (named : name.kind = .identifier) :
      ModeHolds inLoop clauses (.afterName place name) (tokens ++ [word, name]) []
  | forInitial
      {tokens : List Token}
      (stands : PlaceHolds .loopHeader tokens) :
      ModeHolds inLoop clauses .forInitial tokens []
  | forCondition
      {initial : Option Stmt}
      {tokens : List Token}
      {errors : List GrammarError}
      (first : ForInitialHolds initial tokens errors) :
      ModeHolds inLoop clauses (.forCondition initial) tokens errors
  | forStep
      {initial : Option Stmt}
      {condition : Option Expr}
      {tokens : List Token}
      {errors : List GrammarError}
      (second : ForConditionHolds initial condition tokens errors) :
      ModeHolds inLoop clauses (.forStep initial condition) tokens errors
  | leave
      {word : Token}
      (begins : word.kind = .keyword .breakWord) :
      ModeHolds inLoop clauses (.leave word) [word] (leaveErrors inLoop word)
  | operand
      {purpose : Purpose}
      {frames : List Frame}
      {tokens frameTokens : List Token}
      {errors frameErrors : List GrammarError}
      (purposed : PurposeHolds clauses purpose tokens errors)
      (framed : FramesHold frames frameTokens frameErrors) :
      ModeHolds inLoop clauses (.operand purpose frames)
        (tokens ++ frameTokens) (errors ++ frameErrors)
  | operator
      {purpose : Purpose}
      {frames : List Frame}
      {expr : Expr}
      {tokens frameTokens exprTokens : List Token}
      {errors frameErrors exprErrors : List GrammarError}
      (purposed : PurposeHolds clauses purpose tokens errors)
      (framed : FramesHold frames frameTokens frameErrors)
      (phrase : ExprPhrase .unary exprTokens expr exprErrors) :
      ModeHolds inLoop clauses (.operator purpose frames expr)
        (tokens ++ (frameTokens ++ exprTokens)) (errors ++ (frameErrors ++ exprErrors))

/-- The clauses around the innermost statement of a block, the innermost clause first. -/
inductive ClausesHold (inLoop : Bool) : List Clause → List Token → List GrammarError → Prop where
  | nil :
      ClausesHold inLoop [] [] []
  | ifThen
      {clauses : List Clause}
      {tokens condition : List Token}
      {errors conditionErrors : List GrammarError}
      {word opening closing : Token}
      {expr : Expr}
      (around : ClausesHold inLoop clauses tokens errors)
      (begins : word.kind = .keyword .ifWord)
      (opens : opening.kind = .mark .leftParen)
      (tested : ExprPhrase .comma condition expr conditionErrors)
      (closes : closing.kind = .mark .rightParen) :
      ClausesHold inLoop (.ifThen expr :: clauses)
        (tokens ++ word :: opening :: (condition ++ [closing])) (errors ++ conditionErrors)
  | ifElse
      {clauses : List Clause}
      {tokens condition thenBranch : List Token}
      {errors conditionErrors thenErrors : List GrammarError}
      {word opening closing otherwise : Token}
      {expr : Expr}
      {thenStmt : Stmt}
      (around : ClausesHold inLoop clauses tokens errors)
      (begins : word.kind = .keyword .ifWord)
      (opens : opening.kind = .mark .leftParen)
      (tested : ExprPhrase .comma condition expr conditionErrors)
      (closes : closing.kind = .mark .rightParen)
      (chosen :
        StatementPhrase (clauses.any Clause.isLoop || inLoop) .closed
          thenBranch thenStmt thenErrors)
      (separates : otherwise.kind = .keyword .elseWord) :
      ClausesHold inLoop (.ifElse expr thenStmt :: clauses)
        (tokens ++ word :: opening :: (condition ++ closing :: (thenBranch ++ [otherwise])))
        (errors ++ (conditionErrors ++ thenErrors))
  | whileBody
      {clauses : List Clause}
      {tokens condition : List Token}
      {errors conditionErrors : List GrammarError}
      {word opening closing : Token}
      {expr : Expr}
      (around : ClausesHold inLoop clauses tokens errors)
      (begins : word.kind = .keyword .whileWord)
      (opens : opening.kind = .mark .leftParen)
      (tested : ExprPhrase .comma condition expr conditionErrors)
      (closes : closing.kind = .mark .rightParen) :
      ClausesHold inLoop (.whileBody expr :: clauses)
        (tokens ++ word :: opening :: (condition ++ [closing])) (errors ++ conditionErrors)
  | forBody
      {clauses : List Clause}
      {tokens header step : List Token}
      {errors headerErrors stepErrors : List GrammarError}
      {closing : Token}
      {initial : Option Stmt}
      {condition stepExpr : Option Expr}
      (around : ClausesHold inLoop clauses tokens errors)
      (second : ForConditionHolds initial condition header headerErrors)
      (third : OptionalPhrase step stepExpr stepErrors)
      (closes : closing.kind = .mark .rightParen) :
      ClausesHold inLoop (.forBody initial condition stepExpr :: clauses)
        (tokens ++ (header ++ (step ++ [closing]))) (errors ++ (headerErrors ++ stepErrors))

/-- Whether a block inside the given ones lies in a loop. -/
def blocksInLoop
    (outer : List OpenBlock) :
    Bool :=
  outer.any fun block => block.clauses.any Clause.isLoop

/-- The blocks that are open, the innermost first. -/
inductive BlocksHold : List OpenBlock → List Token → List GrammarError → Prop where
  | nil :
      BlocksHold [] [] []
  | cons
      {outer : List OpenBlock}
      {block : OpenBlock}
      {tokens body clauses : List Token}
      {errors bodyErrors clauseErrors : List GrammarError}
      {opening : Token}
      (around : BlocksHold outer tokens errors)
      (before : BodyPhrase (blocksInLoop outer) body block.before.reverse bodyErrors)
      (inside : ClausesHold (blocksInLoop outer) block.clauses clauses clauseErrors)
      (opens : opening.kind = .mark .leftBrace) :
      BlocksHold (block :: outer)
        (tokens ++ (body ++ (clauses ++ [opening]))) (errors ++ (bodyErrors ++ clauseErrors))

/-- What a reader holds outside the innermost statement. -/
inductive ContextHolds :
    List OpenBlock → List Stmt → List Clause → List Token → List GrammarError → Prop where
  | intro
      {outer : List OpenBlock}
      {done : List Stmt}
      {clauses : List Clause}
      {blockTokens body clauseTokens : List Token}
      {blockErrors bodyErrors clauseErrors : List GrammarError}
      (around : BlocksHold outer blockTokens blockErrors)
      (before : BodyPhrase (blocksInLoop outer) body done.reverse bodyErrors)
      (inside : ClausesHold (blocksInLoop outer) clauses clauseTokens clauseErrors) :
      ContextHolds outer done clauses
        (blockTokens ++ (body ++ clauseTokens)) (blockErrors ++ (bodyErrors ++ clauseErrors))

/-- What a reader holds accounts for the tokens taken and the errors found. -/
def Holds
    (reader : Reader)
    (tokens : List Token) :
    Prop :=
  ∃ context statement contextErrors statementErrors,
    ContextHolds reader.outer reader.done reader.clauses context contextErrors ∧
      ModeHolds reader.inLoop reader.clauses reader.mode statement statementErrors ∧
        tokens = context ++ statement ∧
          reader.errors.reverse = contextErrors ++ statementErrors

/-- The innermost block is empty when it has just been opened. -/
theorem BlocksHold.context
    {outer : List OpenBlock}
    {tokens : List Token}
    {errors : List GrammarError}
    (around : BlocksHold outer tokens errors) :
    ContextHolds outer [] [] tokens errors := by
  have body : BodyPhrase (blocksInLoop outer) [] (List.reverse []) [] := .nil
  simpa using ContextHolds.intro around body .nil

/-- A reader that has taken nothing holds nothing. -/
theorem holds_start :
    Holds Reader.start [] :=
  ⟨[], [], [], [], BlocksHold.nil.context, .declaration rfl, rfl, rfl⟩

end BlockScript.Grammar
