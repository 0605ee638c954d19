import BlockScript.Tree.Operator

namespace BlockScript

/-!
# Expressions and statements

A program is a list of statements.  Trees keep the tokens that later messages
and listings speak of: names, operators and the word that leaves a loop.
-/

/-- An expression. -/
inductive Expr where
  | assign (name : Token) (value : Expr)
  | binary (token : Token) (operator : BinaryOperator) (left right : Expr)
  | group (inner : Expr)
  | literal (value : Value)
  | conditional (condition thenValue elseValue : Expr)
  | unary (token : Token) (operator : UnaryOperator) (operand : Expr)
  | lookup (name : Token)
  deriving Repr, DecidableEq

/-- A statement. -/
inductive Stmt where
  | block (body : List Stmt)
  | leave (word : Token)
  | expression (value : Expr)
  | ifThen (condition : Expr) (thenBranch : Stmt)
  | ifElse (condition : Expr) (thenBranch elseBranch : Stmt)
  | print (value : Expr)
  | declare (name : Token) (initial : Option Expr)
  | loop (condition : Expr) (body : Stmt)
  deriving Repr

namespace Expr

/-- Whether an expression is itself an assignment. -/
def isAssignment : Expr → Bool
  | .assign .. => true
  | _ => false

/-- Apply the operator that a token stands for before an operand. -/
def applyUnary
    (token : Token)
    (operand : Expr) :
    Except OperatorFault Expr :=
  match UnaryOperator.ofKind? token.kind with
  | some operator => .ok (.unary token operator operand)
  | none => .error (.notUnary token.kind)

/-- Apply the operator that a token stands for between two operands. -/
def applyBinary
    (token : Token)
    (left right : Expr) :
    Except OperatorFault Expr :=
  match BinaryOperator.ofKind? token.kind with
  | some operator => .ok (.binary token operator left right)
  | none => .error (.notBinary token.kind)

end Expr

namespace Stmt

/--
A counting loop in terms of the others: a block that holds the initial statement
and a loop, whose body runs the statement and then the step in a block of its
own.  A missing condition always holds.
-/
def forLoop
    (initial : Option Stmt)
    (condition step : Option Expr)
    (body : Stmt) :
    Stmt :=
  .block
    (initial.toList ++
      [.loop
        (condition.getD (.literal (.bool true)))
        (.block (body :: step.toList.map .expression))])

end Stmt

end BlockScript
