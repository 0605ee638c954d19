import BlockScript.Execution.Evaluation

namespace BlockScript

/-!
# Executing statements

Executing a statement changes the scopes and writes lines.  It ends normally, by
leaving the innermost loop, or by an error; the scopes and the lines written are
those at that point in each case.

A loop may run its body only a given number of rounds, so that execution always
comes to an end.  Running out of rounds is an outcome of its own.
-/

/-- A written line, by what wrote it. -/
inductive Line where
  /-- Written by a print statement. -/
  | printed (text : String)
  /-- The value of an expression statement, written when echo is on. -/
  | echoed (text : String)
  deriving Repr, DecidableEq

namespace Line

/-- The text of a line without its line feed. -/
def text : Line → String
  | .printed text => text
  | .echoed text => text

end Line

/-- How the execution of a statement ends. -/
inductive Outcome where
  | normal
  | left
  | failed (error : RuntimeError)
  | exhausted
  deriving Repr, DecidableEq

/-- The scopes and the lines written, the last line first. -/
structure World (depth : Nat) where
  chain : Chain depth
  lines : List Line

/-- How programs are executed. -/
structure Policy where
  /-- Whether the values of expression statements are written. -/
  echo : Bool := false
  /-- How many rounds a loop may run; the default is beyond what a machine can run. -/
  rounds : Nat := Nat.pow 2 62
  deriving Repr, DecidableEq

namespace World

/-- Write a line. -/
def write
    {depth : Nat}
    (line : Line)
    (world : World depth) :
    World depth :=
  { world with lines := line :: world.lines }

/-- Bind a name in the innermost scope. -/
def define
    {depth : Nat}
    (name : String)
    (value : Value)
    (world : World depth) :
    World depth :=
  { world with chain := world.chain.define name value }

/-- Run something inside a scope of its own, which is dropped however it ends. -/
def inBlock
    {depth : Nat}
    (world : World depth)
    (run : World (depth + 1) → Outcome × World (depth + 1)) :
    Outcome × World depth :=
  let (outcome, inner) := run { chain := world.chain.enter, lines := world.lines }
  (outcome, { chain := inner.chain.leave, lines := inner.lines })

/-- Go on with the value of an expression, or fail with its error. -/
def withValue
    {depth : Nat}
    (world : World depth)
    (expr : Expr)
    (next : Value → World depth → Outcome × World depth) :
    Outcome × World depth :=
  let evaluation := expr.eval world.chain
  let after := { world with chain := evaluation.chain }
  match evaluation.result with
  | .ok value => next value after
  | .error error => (.failed error, after)

/--
Run the body as long as the condition holds, at most the given number of times.
Leaving the loop ends it normally.
-/
def repeatWhile
    {depth : Nat}
    (condition : Expr)
    (body : World depth → Outcome × World depth) :
    Nat → World depth → Outcome × World depth
  | 0, world => (.exhausted, world)
  | rounds + 1, world =>
      let evaluation := condition.eval world.chain
      let tested := { world with chain := evaluation.chain }
      match evaluation.result with
      | .error error => (.failed error, tested)
      | .ok value =>
          if value.isTruthy then
            match body tested with
            | (.normal, after) => repeatWhile condition body rounds after
            | (.left, after) => (.normal, after)
            | (.failed error, after) => (.failed error, after)
            | (.exhausted, after) => (.exhausted, after)
          else
            (.normal, tested)

end World

namespace Stmt

mutual

/-- Execute a statement. -/
def exec
    (policy : Policy) :
    Stmt → {depth : Nat} → World depth → Outcome × World depth
  | .block body, _, world => world.inBlock (execAll policy body)
  | .leave _, _, world => (.left, world)
  | .expression value, _, world =>
      world.withValue value fun result after =>
        if policy.echo && !value.isAssignment then
          (.normal, after.write (.echoed result.text))
        else
          (.normal, after)
  | .ifThen condition thenBranch, _, world =>
      world.withValue condition fun result after =>
        if result.isTruthy then
          exec policy thenBranch after
        else
          (.normal, after)
  | .ifElse condition thenBranch elseBranch, _, world =>
      world.withValue condition fun result after =>
        if result.isTruthy then
          exec policy thenBranch after
        else
          exec policy elseBranch after
  | .print value, _, world =>
      world.withValue value fun result after =>
        (.normal, after.write (.printed result.text))
  | .declare name none, _, world => (.normal, world.define name.lexeme .nil)
  | .declare name (some initial), _, world =>
      world.withValue initial fun result after =>
        (.normal, after.define name.lexeme result)
  | .loop condition body, _, world =>
      World.repeatWhile condition (exec policy body) policy.rounds world

/-- Execute statements in order, as long as they end normally. -/
def execAll
    (policy : Policy) :
    List Stmt → {depth : Nat} → World depth → Outcome × World depth
  | [], _, world => (.normal, world)
  | first :: rest, _, world =>
      match exec policy first world with
      | (.normal, after) => execAll policy rest after
      | (.left, after) => (.left, after)
      | (.failed error, after) => (.failed error, after)
      | (.exhausted, after) => (.exhausted, after)

end

/--
Execute the statements of a program in the global scope.  A statement that ends
by leaving a loop outside every loop just ends.
-/
def execProgram
    (policy : Policy) :
    List Stmt → World 0 → Outcome × World 0
  | [], world => (.normal, world)
  | first :: rest, world =>
      match exec policy first world with
      | (.normal, after) => execProgram policy rest after
      | (.left, after) => execProgram policy rest after
      | (.failed error, after) => (.failed error, after)
      | (.exhausted, after) => (.exhausted, after)

end Stmt

end BlockScript
