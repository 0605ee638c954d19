import BlockScript.Tree.Outline
import BlockScript.Proofs.Machine.Interpretation

namespace BlockScript

/-!
# Nodes run as trees

A tree that is laid out as nodes runs on the machine as the tree itself runs: the
machine takes no misstep, and what it computes is what the tree computes.  Nodes
that are built through the constructors are laid out from a tree.
-/

namespace Chain

/-- The bindings of a scope as the machine holds them. -/
def image
    (scope : Scope) :
    String → Option Machine.Datum :=
  fun name => scope[name]?.map Value.datum

/-- A chain of scopes as the machine holds it. -/
def environment :
    {depth : Nat} → Chain depth → Machine.Environment
  | _, .globals scope => [image scope]
  | _, .nested scope enclosing => image scope :: enclosing.environment

/-- An empty scope binds nothing. -/
theorem image_empty : image ∅ = fun _ => none := by
  funext name
  simp [image]

/-- A binding is one more binding on the machine. -/
theorem image_insert
    (scope : Scope)
    (name : String)
    (value : Value) :
    image (scope.insert name value) = Machine.bound (image scope) name value.datum := by
  funext other
  by_cases same : name = other
  · simp [image, Machine.bound, same]
  · simp [image, Machine.bound, same, Ne.symm same, Std.TreeMap.getElem?_insert]

/-- A scope binds what its image binds. -/
theorem isSome_image
    (scope : Scope)
    (name : String) :
    (image scope name).isSome = scope.contains name := by
  simp [image]

variable {depth : Nat}

/-- A name is found in the nearest scope that binds it. -/
theorem findSome?_environment
    (name : String)
    (chain : Chain depth) :
    (chain.environment.findSome? fun scope => scope name) = (chain.get? name).map Value.datum := by
  induction chain with
  | globals scope => cases found : scope[name]? <;> simp [environment, get?, image, found]
  | nested scope enclosing inductionHypothesis =>
      cases found : scope[name]? <;>
        simp [environment, get?, image, found, inductionHypothesis]

/-- A name is assigned in the nearest scope that binds it. -/
theorem assign?_environment
    (name : String)
    (value : Value)
    (chain : Chain depth) :
    Machine.Environment.assign? name value.datum chain.environment =
      (chain.assign? name value).map environment := by
  induction chain with
  | globals scope =>
      by_cases binds : scope.contains name = true <;>
        simp [environment, assign?, Machine.Environment.assign?, isSome_image, image_insert, binds]
  | nested scope enclosing inductionHypothesis =>
      by_cases binds : scope.contains name = true
      · simp [environment, assign?, Machine.Environment.assign?, isSome_image, image_insert, binds]
      · simp [environment, assign?, Machine.Environment.assign?, isSome_image, binds,
          inductionHypothesis, Function.comp_def]

end Chain

namespace Machine

section Operators

/-- A known value has a text. -/
theorem text_datum
    (value : Value) :
    value.datum.text = .ok value.text := by
  rcases value with _ | (_ | _) | _ | _ <;> rfl

/-- A known value fails as a condition as it does in a tree. -/
theorem isTruthy_datum
    (value : Value) :
    value.datum.isTruthy = value.isTruthy := by
  cases value <;> rfl

/-- An operator before its operand has a number that the machine knows. -/
theorem applyUnary_datum
    (operator : UnaryOperator)
    (operand : Value) :
    Datum.applyUnary operator.number operand.datum =
      .ok ((operator.apply operand).map Value.datum) := by
  cases operator <;> cases operand <;> rfl

/-- An operator between two operands has a number that the machine knows. -/
theorem applyBinary_datum
    (operator : BinaryOperator)
    (left right : Value) :
    Datum.applyBinary operator.number left.datum right.datum =
      .ok ((operator.apply left right).map Value.datum) := by
  cases operator with
  | divide =>
      cases left <;> cases right <;> try rfl
      rename_i left right
      change Except.ok (if right == 0 then _ else _) =
        Except.ok (Except.map Value.datum (if right == 0 then _ else _))
      split <;> rfl
  | _ => cases left <;> cases right <;> rfl

end Operators

/-- A procedure that looks at the scopes goes on with them. -/
theorem get_bind
    {α : Type}
    (next : Environment → Evaluator α)
    (environment : Environment) :
    (get >>= next : Evaluator α) environment = next environment environment :=
  rfl

/-- A procedure evaluates as a tree does in the same scopes. -/
def Evaluates
    {depth : Nat}
    (procedure : Evaluator Datum)
    (chain : Chain depth)
    (evaluation : Evaluation depth) :
    Prop :=
  procedure.run.run chain.environment =
    .ok (evaluation.result.map Value.datum, evaluation.chain.environment)

namespace Evaluates

variable {depth : Nat} {chain : Chain depth}

/-- A procedure goes on with the value that it has found, or ends with its error. -/
theorem bind
    {first : Evaluator Datum}
    {next : Datum → Evaluator Datum}
    {evaluation : Evaluation depth}
    {goesOn : Value → Chain depth → Evaluation depth}
    (begins : Evaluates first chain evaluation)
    (continues :
      ∀ (value : Value) (after : Chain depth),
        Evaluates (next value.datum) after (goesOn value after)) :
    Evaluates (first >>= next) chain (evaluation.andThen goesOn) := by
  have began :
      first chain.environment =
        .ok (evaluation.result.map Value.datum, evaluation.chain.environment) := begins
  change
    Except.bind (first chain.environment) (fun state => ExceptT.bindCont next state.1 state.2) = _
  rw [began]
  unfold Evaluation.andThen
  cases result : evaluation.result with
  | ok value => exact continues value evaluation.chain
  | error error => rfl

/-- An operator is applied, and its fault blamed on its token. -/
theorem ofOperation
    {token : Token}
    {operation : Except Misstep (Except RuntimeFault Datum)}
    {result : Except RuntimeFault Value}
    (applies : operation = .ok (result.map Value.datum)) :
    Evaluates (Evaluator.ofOperation token operation) chain
      (.ofOperation token result chain) := by
  subst applies
  cases result <;> rfl

/-- A name is looked up. -/
theorem lookUp
    (name : Token) :
    Evaluates (Evaluator.lookUp name) chain (.lookUp name chain) := by
  refine (get_bind _ _).trans ?_
  rw [chain.findSome?_environment name.lexeme]
  unfold Evaluation.lookUp
  cases chain.get? name.lexeme <;> rfl

/-- A name is assigned to. -/
theorem assignTo
    (name : Token)
    (value : Value) :
    Evaluates (Evaluator.assignTo name value.datum) chain (.assignTo name value chain) := by
  refine (get_bind _ _).trans ?_
  rw [chain.assign?_environment name.lexeme value]
  unfold Evaluation.assignTo
  cases chain.assign? name.lexeme value <;> rfl

end Evaluates

/-- An expression that is laid out evaluates as the expression does. -/
theorem evaluates_node
    (expr : Expr)
    {depth : Nat}
    (chain : Chain depth) :
    Evaluates expr.node.eval chain (expr.eval chain) := by
  induction expr generalizing chain with
  | assign name value valueEvaluates =>
      exact (valueEvaluates chain).bind fun assigned after => .assignTo name assigned
  | binary token operator left right leftEvaluates rightEvaluates =>
      exact (leftEvaluates chain).bind fun leftValue between =>
        (rightEvaluates between).bind fun rightValue after =>
          .ofOperation (applyBinary_datum operator leftValue rightValue)
  | group inner innerEvaluates => exact innerEvaluates chain
  | literal value => rfl
  | conditional condition thenValue elseValue conditionEvaluates thenEvaluates elseEvaluates =>
      refine (conditionEvaluates chain).bind fun tested after => ?_
      rw [isTruthy_datum]
      split
      · exact thenEvaluates after
      · exact elseEvaluates after
  | unary token operator operand operandEvaluates =>
      exact (operandEvaluates chain).bind fun value after =>
        .ofOperation (applyUnary_datum operator value)
  | lookup name => exact .lookUp name

-- A number that no operator has is a misstep; nodes laid out from a tree have none such.
example (token : Token) :
    (ExprNode.unary token 7 (.literal .nil)).eval.run.run [] = .error (.unknownOperator 7) :=
  rfl

/-- The scopes and lines of an execution as the machine holds them. -/
def stateOf
    {depth : Nat}
    (world : World depth) :
    State where
  scopes := world.chain.environment
  lines := world.lines

/-- A procedure executes as a tree does in the same scopes. -/
def Executes
    {depth : Nat}
    (procedure : State → Except Misstep (Outcome × State))
    (world : World depth)
    (result : Outcome × World depth) :
    Prop :=
  procedure (stateOf world) = .ok (result.1, stateOf result.2)

namespace Executes

variable {depth : Nat} {world : World depth}

/-- A procedure goes on with the value of an expression, or fails with its error. -/
theorem withValue
    {expr : Expr}
    {next : Datum → State → Except Misstep (Outcome × State)}
    {goesOn : Value → World depth → Outcome × World depth}
    (continues :
      ∀ (value : Value) (after : World depth),
        Executes (next value.datum) after (goesOn value after)) :
    Executes (fun state => state.withValue expr.node next) world
      (world.withValue expr goesOn) := by
  have evaluates := evaluates_node expr world.chain
  unfold Evaluates at evaluates
  change Except.bind (expr.node.eval.run.run world.chain.environment) _ = _
  rw [evaluates]
  unfold World.withValue
  dsimp only
  cases (expr.eval world.chain).result with
  | ok value => exact continues value { world with chain := (expr.eval world.chain).chain }
  | error error => rfl

/-- The scope of a block is dropped however the block ends. -/
theorem inBlock
    {procedure : State → Except Misstep (Outcome × State)}
    {run : World (depth + 1) → Outcome × World (depth + 1)}
    (inner : ∀ entered : World (depth + 1), Executes procedure entered (run entered)) :
    Executes (fun state => state.inBlock procedure) world (world.inBlock run) := by
  have entered := inner { chain := world.chain.enter, lines := world.lines }
  have sameScopes :
      stateOf { chain := world.chain.enter, lines := world.lines } =
        { stateOf world with scopes := (fun _ => none) :: (stateOf world).scopes } := by
    simp [stateOf, Chain.enter, Chain.environment, Chain.image_empty]
  unfold Executes at entered
  rw [sameScopes] at entered
  have left (ended : World (depth + 1)) :
      (stateOf ended).scopes.tail = ended.chain.leave.environment := by
    obtain ⟨chain, lines⟩ := ended
    cases chain with
    | nested scope enclosing => rfl
  change Except.bind (procedure _) _ = _
  rw [entered]
  unfold World.inBlock
  obtain ⟨outcome, ended⟩ := run { chain := world.chain.enter, lines := world.lines }
  have dropped :
      { stateOf ended with scopes := (stateOf ended).scopes.tail } =
        stateOf { chain := ended.chain.leave, lines := ended.lines } := by
    rw [left]
    rfl
  exact congrArg (fun state => Except.ok (outcome, state)) dropped

/-- A loop ends after the same round. -/
theorem repeatWhile
    {condition : Expr}
    {procedure : State → Except Misstep (Outcome × State)}
    {body : World depth → Outcome × World depth}
    (bodyExecutes : ∀ world : World depth, Executes procedure world (body world))
    (rounds : Nat)
    (world : World depth) :
    Executes (State.repeatWhile condition.node procedure rounds) world
      (World.repeatWhile condition body rounds world) := by
  induction rounds generalizing world with
  | zero => rfl
  | succ rounds inductionHypothesis =>
      have evaluates := evaluates_node condition world.chain
      unfold Evaluates at evaluates
      unfold Executes
      change Except.bind (condition.node.eval.run.run world.chain.environment) _ = _
      rw [evaluates, World.repeatWhile]
      dsimp only
      cases (condition.eval world.chain).result with
      | error error => rfl
      | ok tested =>
          have ran := bodyExecutes { world with chain := (condition.eval world.chain).chain }
          unfold Executes at ran
          change (if tested.datum.isTruthy then Except.bind (procedure _) _ else _) = _
          rw [isTruthy_datum]
          dsimp only
          by_cases holds : tested.isTruthy = true
          · rw [if_pos holds, if_pos holds]
            refine (congrArg (fun ended => Except.bind ended _) ran).trans ?_
            rcases body _ with ⟨_ | _ | error | _, last⟩
            · exact inductionHypothesis last
            · rfl
            · rfl
            · rfl
          · rw [if_neg holds, if_neg holds]
            rfl

/-- A name is bound in the innermost scope, and there is always one. -/
theorem define
    (name : String)
    (value : Value)
    (world : World depth) :
    (stateOf world).define name value.datum = .ok (stateOf (world.define name value)) := by
  obtain ⟨chain, lines⟩ := world
  cases chain <;>
    simp [State.define, stateOf, World.define, Chain.define, Chain.environment, Chain.image_insert]

end Executes

/-- The place of an expression is not empty. -/
@[simp]
theorem isMissing_node
    (expr : Expr) :
    expr.node.isMissing = false := by
  cases expr <;> rfl

/-- Nodes are assignments where their expressions are. -/
theorem isAssignment_node
    (expr : Expr) :
    expr.node.isAssignment = expr.isAssignment := by
  cases expr <;> rfl

/-- The place of a statement is not empty. -/
@[simp]
theorem isMissing_stmtNode
    (statement : Stmt) :
    statement.node.isMissing = false := by
  cases statement <;> rfl

mutual

/-- A statement that is laid out executes as the statement does. -/
theorem executes_node
    (policy : Policy) :
    ∀ (statement : Stmt) {depth : Nat} (world : World depth),
      Executes (StmtNode.exec policy statement.node) world (statement.exec policy world)
  | .block body, _, world => by
      rw [Stmt.node, Stmt.exec]
      exact Executes.inBlock fun entered => executes_nodes policy body entered
  | .leave word, _, world => rfl
  | .expression value, _, world => by
      rw [Stmt.exec]
      refine Executes.withValue fun result after => ?_
      unfold Executes
      rw [isAssignment_node, text_datum]
      split <;> rfl
  | .ifThen condition thenBranch, _, world => by
      rw [Stmt.exec]
      refine Executes.withValue fun result after => ?_
      have thenExecutes := executes_node policy thenBranch after
      unfold Executes at thenExecutes ⊢
      rw [isTruthy_datum]
      split
      · exact thenExecutes
      · rfl
  | .ifElse condition thenBranch elseBranch, _, world => by
      rw [Stmt.exec]
      refine Executes.withValue fun result after => ?_
      have thenExecutes := executes_node policy thenBranch after
      have elseExecutes := executes_node policy elseBranch after
      unfold Executes at thenExecutes elseExecutes ⊢
      rw [isTruthy_datum]
      split
      · exact thenExecutes
      · rw [isMissing_stmtNode]
        exact elseExecutes
  | .print value, _, world => by
      rw [Stmt.exec]
      refine Executes.withValue fun result after => ?_
      unfold Executes
      rw [text_datum]
      rfl
  | .declare name none, _, world => by
      rw [Stmt.exec]
      unfold Executes
      change Except.bind ((stateOf world).define name.lexeme Value.nil.datum) _ = _
      rw [Executes.define]
      rfl
  | .declare name (some initial), _, world => by
      rw [Stmt.exec]
      have isPresent : ¬initial.node.isMissing = true := by
        simp
      refine (if_neg isPresent).trans (Executes.withValue fun result after => ?_)
      unfold Executes
      change Except.bind ((stateOf after).define name.lexeme result.datum) _ = _
      rw [Executes.define]
      rfl
  | .loop condition body, _, world => by
      rw [Stmt.exec]
      exact Executes.repeatWhile (executes_node policy body) policy.rounds world

/-- Statements that are laid out execute as the statements do. -/
theorem executes_nodes
    (policy : Policy) :
    ∀ (statements : List Stmt) {depth : Nat} (world : World depth),
      Executes (StmtNode.execAll policy (Stmt.nodes statements)) world
        (Stmt.execAll policy statements world)
  | [], _, world => rfl
  | first :: rest, _, world => by
      have ran := executes_node policy first world
      unfold Executes at ran ⊢
      change Except.bind (StmtNode.exec policy first.node (stateOf world)) _ = _
      rw [ran, Stmt.execAll]
      rcases first.exec policy world with ⟨_ | _ | error | _, after⟩
      · exact executes_nodes policy rest after
      · rfl
      · rfl
      · rfl

end

/-- A program that is laid out executes as the program does. -/
theorem executes_program
    (policy : Policy)
    (statements : List Stmt)
    (world : World 0) :
    Executes (StmtNode.execProgram policy (Stmt.nodes statements)) world
      (Stmt.execProgram policy statements world) := by
  induction statements generalizing world with
  | nil => rfl
  | cons first rest inductionHypothesis =>
      have ran := executes_node policy first world
      unfold Executes at ran ⊢
      change Except.bind (StmtNode.exec policy first.node (stateOf world)) _ = _
      rw [ran, Stmt.execProgram]
      rcases first.exec policy world with ⟨_ | _ | error | _, after⟩
      · exact inductionHypothesis after
      · exact inductionHypothesis after
      · rfl
      · rfl

/-- An expression that is laid out has the outline of the expression. -/
theorem outline_node
    (expr : Expr) :
    expr.node.outline = .ok expr.outline := by
  induction expr with
  | literal value => rcases value with _ | (_ | _) | _ | _ <;> rfl
  | lookup name => rfl
  | _ => simp_all [Expr.node, ExprNode.outline, Expr.outline, bind, Except.bind, pure, Except.pure]

mutual

/-- A statement that is laid out has the outline of the statement. -/
theorem outline_stmtNode :
    ∀ statement : Stmt, statement.node.outline = .ok statement.outline
  | .block body => by
      simp [Stmt.node, StmtNode.outline, Stmt.outline, outlineAll_nodes body, bind, Except.bind,
        pure, Except.pure]
  | .leave _ => rfl
  | .expression value => by
      simp [Stmt.node, StmtNode.outline, Stmt.outline, outline_node, bind, Except.bind, pure,
        Except.pure]
  | .ifThen condition thenBranch => by
      simp [Stmt.node, StmtNode.outline, Stmt.outline, outline_node, outline_stmtNode thenBranch,
        StmtNode.isMissing, bind, Except.bind, pure, Except.pure]
  | .ifElse condition thenBranch elseBranch => by
      simp [Stmt.node, StmtNode.outline, Stmt.outline, outline_node, outline_stmtNode thenBranch,
        outline_stmtNode elseBranch, bind, Except.bind, pure, Except.pure]
  | .print value => by
      simp [Stmt.node, StmtNode.outline, Stmt.outline, outline_node, bind, Except.bind, pure,
        Except.pure]
  | .declare name none => rfl
  | .declare name (some initial) => by
      simp [Stmt.node, StmtNode.outline, Stmt.outline, Expr.optionalNode, outline_node, bind,
        Except.bind, pure, Except.pure]
  | .loop condition body => by
      simp [Stmt.node, StmtNode.outline, Stmt.outline, outline_node, outline_stmtNode body, bind,
        Except.bind, pure, Except.pure]

/-- Statements that are laid out have the outlines of the statements. -/
theorem outlineAll_nodes :
    ∀ statements : List Stmt,
      StmtNode.outlineAll (Stmt.nodes statements) = .ok (Stmt.outlineAll statements)
  | [] => rfl
  | first :: rest => by
      simp [Stmt.nodes, StmtNode.outlineAll, Stmt.outlineAll, outline_stmtNode first,
        outlineAll_nodes rest, bind, Except.bind, pure, Except.pure]

end

end Machine

end BlockScript
