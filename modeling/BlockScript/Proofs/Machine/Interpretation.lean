import BlockScript.Execution.Statement
import BlockScript.Text.Quoted
import BlockScript.Proofs.Machine.Node

namespace BlockScript.Machine

/-!
# Interpreting nodes

The machine evaluates and executes nodes by what it finds in them.  A place that
is empty, a number that stands for no operator and a value of another kind than
the four known ones are missteps where the machine has nothing to do for them.

Scopes are a list, the innermost first.  A loop runs at most as many rounds as the
policy says; a run without an end is so seen up to any number of rounds.
-/

/-- What names are bound to in the scopes around a statement, the innermost first. -/
abbrev Environment := List (String → Option Datum)

/-- A scope with one more binding. -/
def bound
    (scope : String → Option Datum)
    (name : String)
    (value : Datum) :
    String → Option Datum :=
  fun other => if other = name then some value else scope other

/-- Change the value of a name in the nearest scope that binds it. -/
def Environment.assign?
    (name : String)
    (value : Datum) :
    Environment → Option Environment
  | [] => none
  | scope :: outer =>
      if (scope name).isSome then
        some (bound scope name value :: outer)
      else
        (assign? name value outer).map (scope :: ·)

namespace Datum

/-- The text that printing a value writes. -/
def text : Datum → Except Misstep String
  | .nil => .ok "nil"
  | .bool true => .ok "true"
  | .bool false => .ok "false"
  | .string content => .ok content
  | .number double => .ok (Numeral.text .plain double)
  | .foreign _ => .error .unknownValue

/-- Only `nil` and `false` fail as conditions. -/
def isTruthy : Datum → Bool
  | .nil => false
  | .bool truth => truth
  | _ => true

/-- Equality as programs see it; two values of an unknown kind may not be comparable. -/
def equals : Datum → Datum → Except Misstep Bool
  | .nil, .nil => .ok true
  | .bool left, .bool right => .ok (left == right)
  | .string left, .string right => .ok (left == right)
  | .number left, .number right => .ok (left == right)
  | .foreign _, .foreign _ => .error .unknownValue
  | _, _ => .ok false

/-- Compare two things that are ordered, by the number of the comparison. -/
def compareOrdered
    {α : Type}
    (isLess isLessEqual : α → α → Bool)
    (operator : Nat)
    (left right : α) :
    Except Misstep Bool :=
  match operator with
  | 3 => .ok (isLess right left)
  | 4 => .ok (isLessEqual right left)
  | 5 => .ok (isLess left right)
  | 6 => .ok (isLessEqual left right)
  | _ => .error (.unknownOperator operator)

/-- Compare two numbers or two texts. -/
def compare
    (operator : Nat) :
    Datum → Datum → Except Misstep (Except RuntimeFault Datum)
  | .number left, .number right => do
      let holds ← compareOrdered (fun x y => x < y) (fun x y => x ≤ y) operator left right
      pure (.ok (.bool holds))
  | .string left, .string right => do
      let holds ←
        compareOrdered Text.comesBefore (fun x y => !Text.comesBefore y x) operator left right
      pure (.ok (.bool holds))
  | _, _ => .ok (.error .operandsNotComparable)

/-- Add two numbers, or join two texts or a text and a number. -/
def add : Datum → Datum → Except Misstep (Except RuntimeFault Datum)
  | .number left, .number right => .ok (.ok (.number (left + right)))
  | .string left, .string right => .ok (.ok (.string (left ++ right)))
  | .string left, .number right => do
      let shown ← text (.number right)
      pure (.ok (.string (left ++ shown)))
  | .number left, .string right => do
      let shown ← text (.number left)
      pure (.ok (.string (shown ++ right)))
  | _, _ => .ok (.error .operandsNotAddable)

/-- Subtract or multiply two numbers, or divide them. -/
def calculate
    (operator : Nat) :
    Datum → Datum → Except RuntimeFault Datum
  | .number left, .number right =>
      match operator with
      | 8 => .ok (.number (left - right))
      | 9 => .ok (.number (left * right))
      | _ => if right == 0 then .error .divisionByZero else .ok (.number (left / right))
  | _, _ => .error .operandsNotNumbers

/-- Apply the operator with the given number to one value. -/
def applyUnary
    (operator : Nat)
    (operand : Datum) :
    Except Misstep (Except RuntimeFault Datum) :=
  match operator, operand with
  | 1, operand => .ok (.ok (.bool !operand.isTruthy))
  | 0, .number operand => .ok (.ok (.number (-operand)))
  | 0, _ => .ok (.error .operandNotNumber)
  | _, _ => .error (.unknownOperator operator)

/-- Apply the operator with the given number to two values. -/
def applyBinary
    (operator : Nat)
    (left right : Datum) :
    Except Misstep (Except RuntimeFault Datum) :=
  match operator with
  | 0 => .ok (.ok right)
  | 1 => do
      let same ← equals left right
      pure (.ok (.bool same))
  | 2 => do
      let same ← equals left right
      pure (.ok (.bool !same))
  | 3 | 4 | 5 | 6 => compare operator left right
  | 7 => add left right
  | 8 | 9 | 10 => .ok (calculate operator left right)
  | _ => .error (.unknownOperator operator)

end Datum

/-- A procedure that may change bindings and may end with a runtime error. -/
abbrev Evaluator := ExceptT RuntimeError (StateT Environment (Except Misstep))

namespace Evaluator

/-- What a part of the machine gives, unless it takes a misstep. -/
def lift
    {α : Type}
    (result : Except Misstep α) :
    Evaluator α :=
  fun environment => result.map fun value => (.ok value, environment)

/-- The result of an operator, whose fault is blamed on its token. -/
def ofOperation
    (token : Token)
    (result : Except Misstep (Except RuntimeFault Datum)) :
    Evaluator Datum := do
  match ← lift result with
  | .ok value => pure value
  | .error fault => throw { token, fault }

/-- The value of a name. -/
def lookUp
    (name : Token) :
    Evaluator Datum := do
  match (← get).findSome? fun scope => scope name.lexeme with
  | some value => pure value
  | none => throw (.undefined name)

/-- Assign a value to a name; the assignment has that value. -/
def assignTo
    (name : Token)
    (value : Datum) :
    Evaluator Datum := do
  match Environment.assign? name.lexeme value (← get) with
  | some environment =>
      set environment
      pure value
  | none => throw (.undefined name)

end Evaluator

namespace ExprNode

/-- Evaluate a node. -/
def eval : ExprNode → Evaluator Datum
  | .missing => Evaluator.lift (.error .unknownExpression)
  | .assign name value => do
      let assigned ← value.eval
      Evaluator.assignTo name assigned
  | .binary token operator left right => do
      let leftValue ← left.eval
      let rightValue ← right.eval
      Evaluator.ofOperation token (Datum.applyBinary operator leftValue rightValue)
  | .group inner => inner.eval
  | .literal value => pure value
  | .conditional condition thenValue elseValue => do
      let tested ← condition.eval
      if tested.isTruthy then thenValue.eval else elseValue.eval
  | .unary token operator operand => do
      let value ← operand.eval
      Evaluator.ofOperation token (Datum.applyUnary operator value)
  | .lookup name => Evaluator.lookUp name

/-- Whether a place is empty. -/
def isMissing : ExprNode → Bool
  | .missing => true
  | _ => false

/-- Whether a node is itself an assignment. -/
def isAssignment : ExprNode → Bool
  | .assign .. => true
  | _ => false

/-- The outline of a node. -/
def outline : ExprNode → Except Misstep String
  | .missing => .error .unknownExpression
  | .assign name value => do
      let valueOutline ← value.outline
      pure ("(= " ++ name.lexeme ++ " " ++ valueOutline ++ ")")
  | .binary token _ left right => do
      let leftOutline ← left.outline
      let rightOutline ← right.outline
      pure ("(" ++ token.lexeme ++ " " ++ leftOutline ++ " " ++ rightOutline ++ ")")
  | .group inner => do
      let innerOutline ← inner.outline
      pure ("(group " ++ innerOutline ++ ")")
  | .literal (.string text) => .ok (Text.quote text)
  | .literal value => value.text
  | .conditional condition thenValue elseValue => do
      let conditionOutline ← condition.outline
      let thenOutline ← thenValue.outline
      let elseOutline ← elseValue.outline
      pure ("(?: " ++ conditionOutline ++ " " ++ thenOutline ++ " " ++ elseOutline ++ ")")
  | .unary token _ operand => do
      let operandOutline ← operand.outline
      pure ("(" ++ token.lexeme ++ " " ++ operandOutline ++ ")")
  | .lookup name => .ok name.lexeme

end ExprNode

/-- The scopes and the lines written, the last line first. -/
structure State where
  scopes : Environment
  lines : List Line

namespace State

/-- Write a line. -/
def write
    (state : State)
    (line : Line) :
    State :=
  { state with lines := line :: state.lines }

/-- Bind a name in the innermost scope. -/
def define
    (name : String)
    (value : Datum)
    (state : State) :
    Except Misstep State :=
  match state.scopes with
  | [] => .error .noScope
  | scope :: outer => .ok { state with scopes := bound scope name value :: outer }

/-- Run something inside a scope of its own, which is dropped however it ends. -/
def inBlock
    (state : State)
    (run : State → Except Misstep (Outcome × State)) :
    Except Misstep (Outcome × State) := do
  let (outcome, inner) ← run { state with scopes := (fun _ => none) :: state.scopes }
  pure (outcome, { inner with scopes := inner.scopes.tail })

/-- Go on with the value of a node, or fail with its error. -/
def withValue
    (state : State)
    (node : ExprNode)
    (next : Datum → State → Except Misstep (Outcome × State)) :
    Except Misstep (Outcome × State) := do
  match ← node.eval.run.run state.scopes with
  | (.ok value, scopes) => next value { state with scopes }
  | (.error error, scopes) => pure (.failed error, { state with scopes })

/-- Run the body as long as the condition holds, at most the given number of times. -/
def repeatWhile
    (condition : ExprNode)
    (body : State → Except Misstep (Outcome × State)) :
    Nat → State → Except Misstep (Outcome × State)
  | 0, state => .ok (.exhausted, state)
  | rounds + 1, state =>
      state.withValue condition fun tested after =>
        if tested.isTruthy then do
          match ← body after with
          | (.normal, last) => repeatWhile condition body rounds last
          | (.left, last) => pure (.normal, last)
          | (.failed error, last) => pure (.failed error, last)
          | (.exhausted, last) => pure (.exhausted, last)
        else
          pure (.normal, after)

end State

namespace StmtNode

/-- Whether a place is empty. -/
def isMissing : StmtNode → Bool
  | .missing => true
  | _ => false

mutual

/-- Execute a node. -/
def exec
    (policy : Policy) :
    StmtNode → State → Except Misstep (Outcome × State)
  | .missing, _ => .error .unknownStatement
  | .block body, state => state.inBlock (execAll policy body)
  | .leave _, state => .ok (.left, state)
  | .expression value, state =>
      state.withValue value fun result after =>
        if policy.echo && !value.isAssignment then do
          let text ← result.text
          pure (.normal, after.write (.echoed text))
        else
          pure (.normal, after)
  | .conditional condition thenBranch elseBranch, state =>
      state.withValue condition fun result after =>
        if result.isTruthy then
          exec policy thenBranch after
        else if elseBranch.isMissing then
          pure (.normal, after)
        else
          exec policy elseBranch after
  | .print value, state =>
      state.withValue value fun result after => do
        let text ← result.text
        pure (.normal, after.write (.printed text))
  | .declare name initial, state =>
      if initial.isMissing then do
        let after ← state.define name.lexeme .nil
        pure (.normal, after)
      else
        state.withValue initial fun result evaluated => do
          let after ← evaluated.define name.lexeme result
          pure (.normal, after)
  | .loop condition body, state =>
      State.repeatWhile condition (exec policy body) policy.rounds state

/-- Execute nodes in order, as long as they end normally. -/
def execAll
    (policy : Policy) :
    List StmtNode → State → Except Misstep (Outcome × State)
  | [], state => .ok (.normal, state)
  | first :: rest, state => do
      match ← exec policy first state with
      | (.normal, after) => execAll policy rest after
      | (.left, after) => pure (.left, after)
      | (.failed error, after) => pure (.failed error, after)
      | (.exhausted, after) => pure (.exhausted, after)

end

/-- Execute the nodes of a program; leaving a loop outside every loop changes nothing. -/
def execProgram
    (policy : Policy) :
    List StmtNode → State → Except Misstep (Outcome × State)
  | [], state => .ok (.normal, state)
  | first :: rest, state => do
      match ← exec policy first state with
      | (.normal, after) => execProgram policy rest after
      | (.left, after) => execProgram policy rest after
      | (.failed error, after) => pure (.failed error, after)
      | (.exhausted, after) => pure (.exhausted, after)

mutual

/-- The outline of a node. -/
def outline : StmtNode → Except Misstep String
  | .missing => .error .unknownStatement
  | .block body => do
      let bodyOutline ← outlineAll body
      pure ("(block" ++ bodyOutline ++ ")")
  | .leave _ => .ok "(break)"
  | .expression value => do
      let valueOutline ← value.outline
      pure ("(; " ++ valueOutline ++ ")")
  | .conditional condition thenBranch elseBranch => do
      let conditionOutline ← condition.outline
      let thenOutline ← outline thenBranch
      if elseBranch.isMissing then
        pure ("(if " ++ conditionOutline ++ " " ++ thenOutline ++ ")")
      else
        let elseOutline ← outline elseBranch
        pure ("(if " ++ conditionOutline ++ " " ++ thenOutline ++ " " ++ elseOutline ++ ")")
  | .print value => do
      let valueOutline ← value.outline
      pure ("(print " ++ valueOutline ++ ")")
  | .declare name initial =>
      if initial.isMissing then
        pure ("(var " ++ name.lexeme ++ ")")
      else do
        let initialOutline ← initial.outline
        pure ("(var " ++ name.lexeme ++ " " ++ initialOutline ++ ")")
  | .loop condition body => do
      let conditionOutline ← condition.outline
      let bodyOutline ← outline body
      pure ("(while " ++ conditionOutline ++ " " ++ bodyOutline ++ ")")

/-- The outlines of the nodes of a block, each after a space. -/
def outlineAll : List StmtNode → Except Misstep String
  | [] => .ok ""
  | first :: rest => do
      let firstOutline ← outline first
      let restOutline ← outlineAll rest
      pure (" " ++ firstOutline ++ restOutline)

end

end StmtNode

end BlockScript.Machine
