import BlockScript.Tree.Basic
import BlockScript.Scope.Chain
import BlockScript.Execution.Operation

namespace BlockScript

/-!
# Evaluating expressions

Operands are evaluated from left to right before their operator is applied, and
an assigned value before its variable is looked for.  An error ends the
evaluation, but the assignments made before it stay.
-/

/-- A value or an error, with the scopes as the evaluation left them. -/
structure Evaluation (depth : Nat) where
  result : Except RuntimeError Value
  chain : Chain depth

namespace Evaluation

/-- Go on with the value of an evaluation, or keep its error. -/
def andThen
    {depth : Nat}
    (evaluation : Evaluation depth)
    (next : Value → Chain depth → Evaluation depth) :
    Evaluation depth :=
  match evaluation.result with
  | .ok value => next value evaluation.chain
  | .error error => { result := .error error, chain := evaluation.chain }

/-- The result of an operator, whose fault is blamed on its token. -/
def ofOperation
    {depth : Nat}
    (token : Token)
    (result : Except RuntimeFault Value)
    (chain : Chain depth) :
    Evaluation depth where
  result :=
    match result with
    | .ok value => .ok value
    | .error fault => .error { token, fault }
  chain :=
    chain

/-- The value of a name. -/
def lookUp
    {depth : Nat}
    (name : Token)
    (chain : Chain depth) :
    Evaluation depth where
  result :=
    match chain.get? name.lexeme with
    | some value => .ok value
    | none => .error (.undefined name)
  chain :=
    chain

/-- Assign a value to a name; the assignment has that value. -/
def assignTo
    {depth : Nat}
    (name : Token)
    (value : Value)
    (chain : Chain depth) :
    Evaluation depth :=
  match chain.assign? name.lexeme value with
  | some assigned => { result := .ok value, chain := assigned }
  | none => { result := .error (.undefined name), chain }

end Evaluation

/-- Evaluate an expression in a chain of scopes. -/
def Expr.eval
    {depth : Nat} :
    Expr → Chain depth → Evaluation depth
  | .assign name value, chain =>
      (value.eval chain).andThen fun assigned chain => .assignTo name assigned chain
  | .binary token operator left right, chain =>
      (left.eval chain).andThen fun leftValue chain =>
        (right.eval chain).andThen fun rightValue chain =>
          .ofOperation token (operator.apply leftValue rightValue) chain
  | .group inner, chain => inner.eval chain
  | .literal value, chain => { result := .ok value, chain }
  | .conditional condition thenValue elseValue, chain =>
      (condition.eval chain).andThen fun conditionValue chain =>
        if conditionValue.isTruthy then
          thenValue.eval chain
        else
          elseValue.eval chain
  | .unary token operator operand, chain =>
      (operand.eval chain).andThen fun operandValue chain =>
        .ofOperation token (operator.apply operandValue) chain
  | .lookup name, chain => .lookUp name chain

end BlockScript
