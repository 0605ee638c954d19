import BlockScript.Execution.Statement

namespace BlockScript

/-!
# Resolving names from the text

A layout holds, for each block around a place in a program, the names that the
block has declared before that place.  Resolving a program annotates every use
of a name with the number of blocks between it and the innermost one that has
declared the name; without such a block, all of them lie between, and the name
is global.  A declaration counts behind its own initial value, and only in the
block that directly holds it.

A resolved program can be executed in two ways: by walking outward to the
nearest scope that binds a name, and by going straight to the scope that the
annotation names.  Either way the uses of names are recorded as they happen.
-/

/-- The names declared in the blocks around a place, the innermost block first. -/
abbrev Layout := List (List String)

namespace Layout

/-- How many blocks lie between a place and the innermost one that has declared a name. -/
def scopesOut
    (layout : Layout)
    (name : String) :
    Nat :=
  layout.findIdx fun names => names.contains name

/-- The layout behind a declaration; outside every block it declares a global. -/
def declare
    (name : String) :
    Layout → Layout
  | [] => []
  | names :: outer => (name :: names) :: outer

end Layout

/-- An expression whose uses of names are annotated with the number of scopes outward. -/
inductive ResolvedExpr where
  | assign (name : Token) (scopesOut : Nat) (value : ResolvedExpr)
  | binary (token : Token) (operator : BinaryOperator) (left right : ResolvedExpr)
  | group (inner : ResolvedExpr)
  | literal (value : Value)
  | conditional (condition thenValue elseValue : ResolvedExpr)
  | unary (token : Token) (operator : UnaryOperator) (operand : ResolvedExpr)
  | lookup (name : Token) (scopesOut : Nat)
  deriving Repr, DecidableEq

/-- A statement whose uses of names are annotated. -/
inductive ResolvedStmt where
  | block (body : List ResolvedStmt)
  | leave (word : Token)
  | expression (value : ResolvedExpr)
  | ifThen (condition : ResolvedExpr) (thenBranch : ResolvedStmt)
  | ifElse (condition : ResolvedExpr) (thenBranch elseBranch : ResolvedStmt)
  | print (value : ResolvedExpr)
  | declare (name : Token) (initial : Option ResolvedExpr)
  | loop (condition : ResolvedExpr) (body : ResolvedStmt)
  deriving Repr

/-- Annotate the uses of names in an expression. -/
def Expr.resolve
    (layout : Layout) :
    Expr → ResolvedExpr
  | .assign name value => .assign name (layout.scopesOut name.lexeme) (value.resolve layout)
  | .binary token operator left right =>
      .binary token operator (left.resolve layout) (right.resolve layout)
  | .group inner => .group (inner.resolve layout)
  | .literal value => .literal value
  | .conditional condition thenValue elseValue =>
      .conditional (condition.resolve layout) (thenValue.resolve layout) (elseValue.resolve layout)
  | .unary token operator operand => .unary token operator (operand.resolve layout)
  | .lookup name => .lookup name (layout.scopesOut name.lexeme)

namespace Stmt

/-- The layout behind a statement of a block: only a declaration changes it. -/
def layoutBehind
    (layout : Layout) :
    Stmt → Layout
  | .declare name _ => layout.declare name.lexeme
  | _ => layout

mutual

/-- Annotate the uses of names in a statement. -/
def resolve
    (layout : Layout) :
    Stmt → ResolvedStmt
  | .block body => .block (resolveAll ([] :: layout) body)
  | .leave word => .leave word
  | .expression value => .expression (value.resolve layout)
  | .ifThen condition thenBranch => .ifThen (condition.resolve layout) (thenBranch.resolve layout)
  | .ifElse condition thenBranch elseBranch =>
      .ifElse (condition.resolve layout) (thenBranch.resolve layout) (elseBranch.resolve layout)
  | .print value => .print (value.resolve layout)
  | .declare name initial => .declare name (initial.map (Expr.resolve layout))
  | .loop condition body => .loop (condition.resolve layout) (body.resolve layout)

/-- Annotate the uses of names in the statements of a block or a program. -/
def resolveAll
    (layout : Layout) :
    List Stmt → List ResolvedStmt
  | [] => []
  | first :: rest => first.resolve layout :: resolveAll (first.layoutBehind layout) rest

end

end Stmt

namespace Chain

/-- How many scopes the way outward passes until one binds the name or is the global one. -/
def scopesOut
    (name : String) :
    {depth : Nat} → Chain depth → Nat
  | _, .globals _ => 0
  | _, .nested scope enclosing =>
      if scope.contains name then 0 else enclosing.scopesOut name + 1

/-- The value of a name in the scope that lies the given number outward. -/
def getAt?
    (name : String) :
    Nat → {depth : Nat} → Chain depth → Option Value
  | _, _, .globals scope => scope[name]?
  | 0, _, .nested scope _ => scope[name]?
  | scopesOut + 1, _, .nested _ enclosing => enclosing.getAt? name scopesOut

/-- Change the value of a name in the scope that lies the given number outward. -/
def assignAt?
    (name : String)
    (value : Value) :
    Nat → {depth : Nat} → Chain depth → Option (Chain depth)
  | _, _, .globals scope =>
      if scope.contains name then
        some (.globals (scope.insert name value))
      else
        none
  | 0, _, .nested scope enclosing =>
      if scope.contains name then
        some (.nested (scope.insert name value) enclosing)
      else
        none
  | scopesOut + 1, _, .nested scope enclosing =>
      (enclosing.assignAt? name value scopesOut).map (.nested scope)

end Chain

/-- A way to find the scope of a name, which may use the annotation. -/
structure Finding where
  get? : Nat → String → {depth : Nat} → Chain depth → Option Value
  assign? : Nat → String → Value → {depth : Nat} → Chain depth → Option (Chain depth)

namespace Finding

/-- Walk outward to the nearest scope that binds the name. -/
def walking : Finding where
  get? _ name _ chain :=
    chain.get? name
  assign? _ name value _ chain :=
    chain.assign? name value

/-- Go straight to the scope that the annotation names. -/
def direct : Finding where
  get? scopesOut name _ chain :=
    chain.getAt? name scopesOut
  assign? scopesOut name value _ chain :=
    chain.assignAt? name value scopesOut

end Finding

/-- A use of a name: its annotation, and the scopes at the moment of the use. -/
structure Access where
  name : Token
  scopesOut : Nat
  depth : Nat
  chain : Chain depth

/-- The way outward from the innermost scope ends where the text says. -/
def Access.IsLexical
    (access : Access) :
    Prop :=
  access.chain.scopesOut access.name.lexeme = access.scopesOut

/-- The scopes, the lines written and the uses of names, the last ones first. -/
structure TracedWorld (depth : Nat) where
  chain : Chain depth
  lines : List Line
  accesses : List Access

namespace TracedWorld

/-- The world without the record of the uses of names. -/
def untraced
    {depth : Nat}
    (world : TracedWorld depth) :
    World depth where
  chain :=
    world.chain
  lines :=
    world.lines

/-- Record the use of a name. -/
def trace
    {depth : Nat}
    (name : Token)
    (scopesOut : Nat)
    (world : TracedWorld depth) :
    TracedWorld depth :=
  { world with
    accesses := { name, scopesOut, depth, chain := world.chain } :: world.accesses }

/-- Write a line. -/
def write
    {depth : Nat}
    (line : Line)
    (world : TracedWorld depth) :
    TracedWorld depth :=
  { world with lines := line :: world.lines }

/-- Bind a name in the innermost scope. -/
def define
    {depth : Nat}
    (name : String)
    (value : Value)
    (world : TracedWorld depth) :
    TracedWorld depth :=
  { world with chain := world.chain.define name value }

/-- The value of a name. -/
def lookUp
    {depth : Nat}
    (finding : Finding)
    (name : Token)
    (scopesOut : Nat)
    (world : TracedWorld depth) :
    Except RuntimeError Value × TracedWorld depth :=
  match finding.get? scopesOut name.lexeme world.chain with
  | some value => (.ok value, world.trace name scopesOut)
  | none => (.error (.undefined name), world.trace name scopesOut)

/-- Assign a value to a name; the assignment has that value. -/
def assignTo
    {depth : Nat}
    (finding : Finding)
    (name : Token)
    (scopesOut : Nat)
    (value : Value)
    (world : TracedWorld depth) :
    Except RuntimeError Value × TracedWorld depth :=
  match finding.assign? scopesOut name.lexeme value world.chain with
  | some assigned => (.ok value, { world.trace name scopesOut with chain := assigned })
  | none => (.error (.undefined name), world.trace name scopesOut)

end TracedWorld

namespace ResolvedExpr

/-- Go on with the value of an evaluation, or keep its error. -/
def andThen
    {depth : Nat}
    (evaluated : Except RuntimeError Value × TracedWorld depth)
    (next : Value → TracedWorld depth → Except RuntimeError Value × TracedWorld depth) :
    Except RuntimeError Value × TracedWorld depth :=
  match evaluated with
  | (.ok value, after) => next value after
  | (.error error, after) => (.error error, after)

/-- The result of an operator, whose fault is blamed on its token. -/
def ofOperation
    {depth : Nat}
    (token : Token)
    (result : Except RuntimeFault Value)
    (world : TracedWorld depth) :
    Except RuntimeError Value × TracedWorld depth :=
  match result with
  | .ok value => (.ok value, world)
  | .error fault => (.error { token, fault }, world)

/-- Evaluate a resolved expression. -/
def eval
    (finding : Finding)
    {depth : Nat} :
    ResolvedExpr → TracedWorld depth → Except RuntimeError Value × TracedWorld depth
  | .assign name scopesOut value, world =>
      andThen (value.eval finding world) fun assigned after =>
        after.assignTo finding name scopesOut assigned
  | .binary token operator left right, world =>
      andThen (left.eval finding world) fun leftValue after =>
        andThen (right.eval finding after) fun rightValue after =>
          ofOperation token (operator.apply leftValue rightValue) after
  | .group inner, world => inner.eval finding world
  | .literal value, world => (.ok value, world)
  | .conditional condition thenValue elseValue, world =>
      andThen (condition.eval finding world) fun conditionValue after =>
        if conditionValue.isTruthy then
          thenValue.eval finding after
        else
          elseValue.eval finding after
  | .unary token operator operand, world =>
      andThen (operand.eval finding world) fun operandValue after =>
        ofOperation token (operator.apply operandValue) after
  | .lookup name scopesOut, world => world.lookUp finding name scopesOut

/-- Whether an expression is itself an assignment. -/
def isAssignment : ResolvedExpr → Bool
  | .assign .. => true
  | _ => false

end ResolvedExpr

namespace TracedWorld

/-- Run something inside a scope of its own, which is dropped however it ends. -/
def inBlock
    {depth : Nat}
    (world : TracedWorld depth)
    (run : TracedWorld (depth + 1) → Outcome × TracedWorld (depth + 1)) :
    Outcome × TracedWorld depth :=
  let (outcome, inner) := run { world with chain := world.chain.enter }
  (outcome, { inner with chain := inner.chain.leave })

/-- Go on with the value of an expression, or fail with its error. -/
def withValue
    {depth : Nat}
    (finding : Finding)
    (world : TracedWorld depth)
    (expr : ResolvedExpr)
    (next : Value → TracedWorld depth → Outcome × TracedWorld depth) :
    Outcome × TracedWorld depth :=
  match expr.eval finding world with
  | (.ok value, after) => next value after
  | (.error error, after) => (.failed error, after)

/-- Run the body as long as the condition holds, at most the given number of times. -/
def repeatWhile
    {depth : Nat}
    (finding : Finding)
    (condition : ResolvedExpr)
    (body : TracedWorld depth → Outcome × TracedWorld depth) :
    Nat → TracedWorld depth → Outcome × TracedWorld depth
  | 0, world => (.exhausted, world)
  | rounds + 1, world =>
      world.withValue finding condition fun value tested =>
        if value.isTruthy then
          match body tested with
          | (.normal, after) => repeatWhile finding condition body rounds after
          | (.left, after) => (.normal, after)
          | (.failed error, after) => (.failed error, after)
          | (.exhausted, after) => (.exhausted, after)
        else
          (.normal, tested)

end TracedWorld

namespace ResolvedStmt

mutual

/-- Execute a resolved statement. -/
def exec
    (finding : Finding)
    (policy : Policy) :
    ResolvedStmt → {depth : Nat} → TracedWorld depth → Outcome × TracedWorld depth
  | .block body, _, world => world.inBlock (execAll finding policy body)
  | .leave _, _, world => (.left, world)
  | .expression value, _, world =>
      world.withValue finding value fun result after =>
        if policy.echo && !value.isAssignment then
          (.normal, after.write (.echoed result.text))
        else
          (.normal, after)
  | .ifThen condition thenBranch, _, world =>
      world.withValue finding condition fun result after =>
        if result.isTruthy then
          exec finding policy thenBranch after
        else
          (.normal, after)
  | .ifElse condition thenBranch elseBranch, _, world =>
      world.withValue finding condition fun result after =>
        if result.isTruthy then
          exec finding policy thenBranch after
        else
          exec finding policy elseBranch after
  | .print value, _, world =>
      world.withValue finding value fun result after =>
        (.normal, after.write (.printed result.text))
  | .declare name none, _, world => (.normal, world.define name.lexeme .nil)
  | .declare name (some initial), _, world =>
      world.withValue finding initial fun result after =>
        (.normal, after.define name.lexeme result)
  | .loop condition body, _, world =>
      TracedWorld.repeatWhile finding condition (exec finding policy body) policy.rounds world

/-- Execute resolved statements in order, as long as they end normally. -/
def execAll
    (finding : Finding)
    (policy : Policy) :
    List ResolvedStmt → {depth : Nat} → TracedWorld depth → Outcome × TracedWorld depth
  | [], _, world => (.normal, world)
  | first :: rest, _, world =>
      match exec finding policy first world with
      | (.normal, after) => execAll finding policy rest after
      | (.left, after) => (.left, after)
      | (.failed error, after) => (.failed error, after)
      | (.exhausted, after) => (.exhausted, after)

end

/-- Execute the statements of a resolved program in the global scope. -/
def execProgram
    (finding : Finding)
    (policy : Policy) :
    List ResolvedStmt → TracedWorld 0 → Outcome × TracedWorld 0
  | [], world => (.normal, world)
  | first :: rest, world =>
      match exec finding policy first world with
      | (.normal, after) => execProgram finding policy rest after
      | (.left, after) => execProgram finding policy rest after
      | (.failed error, after) => (.failed error, after)
      | (.exhausted, after) => (.exhausted, after)

end ResolvedStmt

end BlockScript
