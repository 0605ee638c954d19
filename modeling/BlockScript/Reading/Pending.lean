import BlockScript.Tree.Basic
import BlockScript.Reading.Fault

namespace BlockScript

/-!
# What is pending between two tokens

A program is read one token at a time.  Between two tokens the reader holds what
has begun and not ended: the open blocks, the clauses around the statement that
is being read, and, inside an expression, the frames that wait for an operand.

A frame that waits for its last operand has the level of its construct and is
filled once a token comes that holds its operands less tightly.  A bracket waits
for its own closing token.
-/

/-- A part of an expression that waits for an operand. -/
inductive Frame where
  /-- An operator before the awaited operand. -/
  | unary (token : Token) (operator : UnaryOperator)
  /-- An operator between the left operand and the awaited one. -/
  | binary (token : Token) (operator : BinaryOperator) (left : Expr)
  /-- An equals sign between the target and the awaited value. -/
  | assign (target : Expr) (equals : Token)
  /-- A conditional expression that awaits its last part. -/
  | otherwise (condition thenValue : Expr)
  /-- A conditional expression that awaits its middle part and then a colon. -/
  | choice (condition : Expr)
  /-- A parenthesis that awaits an expression and its own closing. -/
  | group
  deriving Repr, DecidableEq

namespace Frame

/-- The level of a frame that awaits its last operand; a bracket has none. -/
def level? : Frame → Option Level
  | .unary .. => some .unary
  | .binary _ operator _ => some operator.level
  | .assign .. => some .assignment
  | .otherwise .. => some .conditional
  | .choice _ => none
  | .group => none

/--
The expression that a frame becomes with its awaited operand.  An assignment to
something other than a variable leaves its target.
-/
def fill
    (operand : Expr) :
    Frame → Expr
  | .unary token operator => .unary token operator operand
  | .binary token operator left => .binary token operator left operand
  | .assign (.lookup name) _ => .assign name operand
  | .assign target _ => target
  | .otherwise condition thenValue => .conditional condition thenValue operand
  | .choice _ => operand
  | .group => .group operand

/-- The error that filling a frame brings to light. -/
def error? : Frame → Option GrammarError
  | .assign (.lookup _) _ => none
  | .assign _ equals => some { token := equals, fault := .invalidAssignmentTarget }
  | _ => none

/-- Whether an operator of the given level ends the frame's last operand. -/
def isEndedBy
    (level : Level)
    (frame : Frame) :
    Bool :=
  match frame.level? with
  | some own => level.rank ≤ own.rank
  | none => false

end Frame

/-- An expression whose frames of at least some level have been filled. -/
structure Collapse where
  expr : Expr
  frames : List Frame
  errors : List GrammarError
  deriving Repr, DecidableEq

/--
Fill the innermost frames that an operator of the given level ends.  The errors
found are put before those given, the last one first.
-/
def collapse
    (level : Level)
    (errors : List GrammarError)
    (operand : Expr) :
    List Frame → Collapse
  | [] => { expr := operand, frames := [], errors }
  | frame :: outer =>
      if frame.isEndedBy level then
        collapse level (frame.error?.toList ++ errors) (frame.fill operand) outer
      else
        { expr := operand, frames := frame :: outer, errors }

/-- Whether a declaration or an expression statement stands alone or in the header of a loop. -/
inductive Place where
  | alone
  | loopHeader
  deriving Repr, DecidableEq

/-- What the expression that is being read is for. -/
inductive Purpose where
  | print
  | statement (place : Place)
  | initial (place : Place) (name : Token)
  | ifCondition
  | whileCondition
  | forCondition (initial : Option Stmt)
  | forStep (initial : Option Stmt) (condition : Option Expr)
  deriving Repr

/-- The fault when an expression is not followed by what its purpose demands. -/
def Purpose.fault : Purpose → GrammarFault
  | .print => .expectSemicolonAfterValue
  | .statement _ => .expectSemicolonAfterExpression
  | .initial .. => .expectSemicolonAfterDeclaration
  | .ifCondition => .expectParenAfterIfCondition
  | .whileCondition => .expectParenAfterCondition
  | .forCondition _ => .expectSemicolonAfterLoopCondition
  | .forStep .. => .expectParenAfterForClauses

/-- A statement with a header in parentheses. -/
inductive Header where
  | ifHeader
  | whileHeader
  | forHeader
  deriving Repr, DecidableEq

/-- The fault when a header does not begin with a parenthesis. -/
def Header.fault : Header → GrammarFault
  | .ifHeader => .expectParenAfterIf
  | .whileHeader => .expectParenAfterWhile
  | .forHeader => .expectParenAfterFor

/-- A statement that waits for the statement inside it. -/
inductive Clause where
  | ifThen (condition : Expr)
  | ifElse (condition : Expr) (thenBranch : Stmt)
  | whileBody (condition : Expr)
  | forBody (initial : Option Stmt) (condition step : Option Expr)
  deriving Repr

namespace Clause

/-- Whether the awaited statement is the body of a loop. -/
def isLoop : Clause → Bool
  | .ifThen _ => false
  | .ifElse .. => false
  | .whileBody _ => true
  | .forBody .. => true

/-- The statement that a clause becomes with the one it awaits, when no alternative follows. -/
def fill
    (inner : Stmt) :
    Clause → Stmt
  | .ifThen condition => .ifThen condition inner
  | .ifElse condition thenBranch => .ifElse condition thenBranch inner
  | .whileBody condition => .loop condition inner
  | .forBody initial condition step => .forLoop initial condition step inner

end Clause

/-- What the reader expects next. -/
inductive Mode where
  /-- A declaration or a statement of the innermost block, or the end of that block. -/
  | declaration
  /-- The statement that the innermost clause awaits. -/
  | statement
  /-- The alternative of a conditional statement, or whatever follows it. -/
  | afterThen (condition : Expr) (thenBranch : Stmt)
  /-- The parenthesis that begins a header. -/
  | header (header : Header)
  /-- The name of a declaration. -/
  | name (place : Place)
  /-- The initial value of a declaration, or its end. -/
  | afterName (place : Place) (name : Token)
  /-- The first part of the header of a counting loop. -/
  | forInitial
  /-- The second part of the header of a counting loop. -/
  | forCondition (initial : Option Stmt)
  /-- The third part of the header of a counting loop. -/
  | forStep (initial : Option Stmt) (condition : Option Expr)
  /-- The semicolon after the word that leaves a loop. -/
  | leave (word : Token)
  /-- An operand of an expression. -/
  | operand (purpose : Purpose) (frames : List Frame)
  /-- An operator after an operand, or the end of the expression. -/
  | operator (purpose : Purpose) (frames : List Frame) (operand : Expr)
  /-- The next place at which a statement may begin, after an error. -/
  | skipping
  deriving Repr

/-- A block that has been opened: what its enclosing block held, and the clauses around it. -/
structure OpenBlock where
  before : List Stmt
  clauses : List Clause
  deriving Repr

/--
What the reader holds between two tokens.  Errors and completed statements are
held last first, and open blocks and clauses innermost first.
-/
structure Reader where
  errors : List GrammarError
  outer : List OpenBlock
  done : List Stmt
  clauses : List Clause
  mode : Mode
  deriving Repr

namespace Reader

/-- The reader before the first token. -/
def start : Reader where
  errors := []
  outer := []
  done := []
  clauses := []
  mode := .declaration

/-- Whether the statement that is being read lies in the body of a loop. -/
def inLoop
    (reader : Reader) :
    Bool :=
  reader.clauses.any Clause.isLoop ||
    reader.outer.any fun block => block.clauses.any Clause.isLoop

end Reader

end BlockScript
