import BlockScript.Tree.Basic

namespace BlockScript

/-!
# Nodes

The machine runs programs with parts that do not protect themselves.  A place in
a tree may be empty, an operator is a number, and a value may be of a kind that
no program computes.  Whatever finds such a part where it cannot go on takes a
misstep, and so does whatever reads outside a text or a list.

A part that calls itself is given how deep its calls may go, and has no outcome
when it would have to go deeper.  What the machine does is what it does however deep
it may go: `Gives` says that from some depth on a part has the given value.

Nodes are built from tokens as trees are, but the number of an operator is looked
up in a table that may not have it.  `Expr.node` and `Stmt.node` lay a tree out
as nodes; what has been built is always laid out from a tree.
-/

namespace Machine

/-- Why the machine cannot go on. -/
inductive Misstep where
  /-- A character at or behind the end of the source was taken. -/
  | beyondSource
  /-- A piece of the source was taken that does not lie in it. -/
  | outsideSource
  /-- A token behind the last one was looked at. -/
  | beyondTokens
  /-- The token before the first one was looked at. -/
  | beforeTokens
  /-- A token has no number as an operator before its operand. -/
  | notUnary (kind : Kind)
  /-- A token has no number as an operator between two operands. -/
  | notBinary (kind : Kind)
  | unknownExpression
  | unknownStatement
  | unknownOperator (number : Nat)
  | unknownValue
  /-- A name was bound outside every scope. -/
  | noScope
  deriving Repr, DecidableEq

/-- Something holds however deep calls may go, from some depth on. -/
def FromSomeDepth
    (holds : Nat → Prop) :
    Prop :=
  ∃ depth, ∀ fuel, depth ≤ fuel → holds fuel

namespace FromSomeDepth

variable {first second : Nat → Prop}

/-- What holds at every depth holds from the first one on. -/
theorem of_forall
    (always : ∀ fuel, first fuel) :
    FromSomeDepth first :=
  ⟨0, fun fuel _ => always fuel⟩

/-- What follows at each depth follows from the same depth on. -/
theorem imp
    (holds : FromSomeDepth first)
    (follows : ∀ fuel, first fuel → second fuel) :
    FromSomeDepth second := by
  obtain ⟨depth, holds⟩ := holds
  exact ⟨depth, fun fuel deep => follows fuel (holds fuel deep)⟩

/-- Two things hold together as deep as both need. -/
theorem and
    (holds : FromSomeDepth first)
    (holdsToo : FromSomeDepth second) :
    FromSomeDepth fun fuel => first fuel ∧ second fuel := by
  obtain ⟨depth, holds⟩ := holds
  obtain ⟨otherDepth, holdsToo⟩ := holdsToo
  refine ⟨max depth otherDepth, fun fuel deep => ⟨holds fuel ?_, holdsToo fuel ?_⟩⟩
  · exact Nat.le_trans (Nat.le_max_left depth otherDepth) deep
  · exact Nat.le_trans (Nat.le_max_right depth otherDepth) deep

/-- A call needs one level more than what it does. -/
theorem deeper
    (holds : FromSomeDepth fun fuel => first (fuel + 1)) :
    FromSomeDepth first := by
  obtain ⟨depth, holds⟩ := holds
  refine ⟨depth + 1, fun fuel deep => ?_⟩
  obtain ⟨fuel, rfl⟩ := Nat.exists_eq_add_of_le' (Nat.le_of_add_left_le deep)
  exact holds fuel (Nat.le_of_add_le_add_right deep)

end FromSomeDepth

/-- A part of the machine gives a value without a misstep, from some depth of calls on. -/
def Gives
    {α : Type}
    (part : Nat → ExceptT Misstep Option α)
    (value : α) :
    Prop :=
  FromSomeDepth fun fuel => (part fuel).run = some (.ok value)

namespace Gives

variable {α β : Type}

/-- A part that makes no calls gives its value at any depth. -/
theorem of_run
    {part : ExceptT Misstep Option α}
    {value : α}
    (run : part.run = some (.ok value)) :
    Gives (fun _ => part) value :=
  .of_forall fun _ => run

/-- A part goes on with what its first part gives. -/
theorem bind
    {first : Nat → ExceptT Misstep Option α}
    {next : Nat → α → ExceptT Misstep Option β}
    {value : α}
    {result : β}
    (gives : Gives first value)
    (goesOn : Gives (fun fuel => next fuel value) result) :
    Gives (fun fuel => first fuel >>= next fuel) result := by
  refine (gives.and goesOn).imp ?_
  rintro fuel ⟨begins, ends⟩
  have given : first fuel = some (.ok value) := begins
  dsimp only
  rw [given]
  exact ends

/-- A part gives no more than one value. -/
theorem unique
    {part : Nat → ExceptT Misstep Option α}
    {first second : α}
    (gives : Gives part first)
    (givesToo : Gives part second) :
    first = second := by
  obtain ⟨depth, both⟩ := gives.and givesToo
  obtain ⟨ends, endsToo⟩ := both depth (Nat.le_refl depth)
  exact Except.ok.inj (Option.some.inj (ends.symm.trans endsToo))

end Gives

/-- A value of any kind. -/
inductive Datum where
  | nil
  | bool (truth : Bool)
  | string (content : String)
  | number (double : Float)
  | foreign (description : String)
  deriving Repr, DecidableEq

end Machine

namespace Value

/-- A value as the machine holds it. -/
def datum : Value → Machine.Datum
  | .nil => .nil
  | .bool truth => .bool truth
  | .string content => .string content
  | .number double => .number double

end Value

namespace Machine

/-- A place for an expression. -/
inductive ExprNode where
  | missing
  | assign (name : Token) (value : ExprNode)
  | binary (token : Token) (operator : Nat) (left right : ExprNode)
  | group (inner : ExprNode)
  | literal (value : Datum)
  | conditional (condition thenValue elseValue : ExprNode)
  | unary (token : Token) (operator : Nat) (operand : ExprNode)
  | lookup (name : Token)
  deriving Repr, DecidableEq

/-- A place for a statement. -/
inductive StmtNode where
  | missing
  | block (body : List StmtNode)
  | leave (word : Token)
  | expression (value : ExprNode)
  | conditional (condition : ExprNode) (thenBranch elseBranch : StmtNode)
  | print (value : ExprNode)
  | declare (name : Token) (initial : ExprNode)
  | loop (condition : ExprNode) (body : StmtNode)
  deriving Repr

/-- The numbers of the operators before their operand, by the kinds of their tokens. -/
def unaryNumbers : List (Kind × Nat) :=
  [(.mark .minus, 0), (.mark .bang, 1)]

/-- The numbers of the operators between two operands, by the kinds of their tokens. -/
def binaryNumbers : List (Kind × Nat) :=
  [(.mark .comma, 0), (.mark .equalEqual, 1), (.mark .bangEqual, 2), (.mark .greater, 3),
    (.mark .greaterEqual, 4), (.mark .less, 5), (.mark .lessEqual, 6), (.mark .plus, 7),
    (.mark .minus, 8), (.mark .star, 9), (.mark .slash, 10)]

namespace ExprNode

/-- The operator that a token stands for before an operand. -/
def ofUnary
    (token : Token)
    (operand : ExprNode) :
    Except Misstep ExprNode :=
  match unaryNumbers.lookup token.kind with
  | some number => .ok (.unary token number operand)
  | none => .error (.notUnary token.kind)

/-- The operator that a token stands for between two operands. -/
def ofBinary
    (token : Token)
    (left right : ExprNode) :
    Except Misstep ExprNode :=
  match binaryNumbers.lookup token.kind with
  | some number => .ok (.binary token number left right)
  | none => .error (.notBinary token.kind)

/-- A node that was built through the constructors, over values of the four known kinds. -/
inductive IsBuilt : ExprNode → Prop where
  | assign {value : ExprNode} (name : Token) (built : IsBuilt value) : IsBuilt (.assign name value)
  | binary
      {token : Token} {left right node : ExprNode} (leftBuilt : IsBuilt left)
      (rightBuilt : IsBuilt right) (builds : ofBinary token left right = .ok node) : IsBuilt node
  | group {inner : ExprNode} (built : IsBuilt inner) : IsBuilt (.group inner)
  | literal (value : Value) : IsBuilt (.literal value.datum)
  | conditional
      {condition thenValue elseValue : ExprNode} (conditionBuilt : IsBuilt condition)
      (thenBuilt : IsBuilt thenValue) (elseBuilt : IsBuilt elseValue) :
      IsBuilt (.conditional condition thenValue elseValue)
  | unary
      {token : Token} {operand node : ExprNode} (operandBuilt : IsBuilt operand)
      (builds : ofUnary token operand = .ok node) : IsBuilt node
  | lookup (name : Token) : IsBuilt (.lookup name)

end ExprNode

/--
A statement that was built through the constructors.  The alternative of a
conditional and the initial value of a declaration may be left out.
-/
inductive StmtNode.IsBuilt : StmtNode → Prop where
  | block {body : List StmtNode} (built : ∀ node ∈ body, IsBuilt node) : IsBuilt (.block body)
  | leave (word : Token) : IsBuilt (.leave word)
  | expression {value : ExprNode} (built : value.IsBuilt) : IsBuilt (.expression value)
  | ifThen
      {condition : ExprNode} {thenBranch : StmtNode} (conditionBuilt : condition.IsBuilt)
      (thenBuilt : IsBuilt thenBranch) : IsBuilt (.conditional condition thenBranch .missing)
  | ifElse
      {condition : ExprNode} {thenBranch elseBranch : StmtNode}
      (conditionBuilt : condition.IsBuilt) (thenBuilt : IsBuilt thenBranch)
      (elseBuilt : IsBuilt elseBranch) : IsBuilt (.conditional condition thenBranch elseBranch)
  | print {value : ExprNode} (built : value.IsBuilt) : IsBuilt (.print value)
  | declare (name : Token) : IsBuilt (.declare name .missing)
  | declareWith (name : Token) {initial : ExprNode} (built : initial.IsBuilt) :
      IsBuilt (.declare name initial)
  | loop
      {condition : ExprNode} {body : StmtNode} (conditionBuilt : condition.IsBuilt)
      (bodyBuilt : IsBuilt body) : IsBuilt (.loop condition body)

end Machine

namespace UnaryOperator

/-- The number of an operator before its operand. -/
def number : UnaryOperator → Nat
  | .negate => 0
  | .not => 1

/-- The table has the numbers of exactly the tokens that are operators. -/
theorem lookup_unaryNumbers
    (kind : Kind) :
    Machine.unaryNumbers.lookup kind = (ofKind? kind).map number := by
  cases kind with
  | mark sign => cases sign <;> rfl
  | _ => rfl

end UnaryOperator

namespace BinaryOperator

/-- The number of an operator between two operands. -/
def number : BinaryOperator → Nat
  | .comma => 0
  | .equal => 1
  | .notEqual => 2
  | .greater => 3
  | .greaterEqual => 4
  | .less => 5
  | .lessEqual => 6
  | .add => 7
  | .subtract => 8
  | .multiply => 9
  | .divide => 10

/-- The table has the numbers of exactly the tokens that are operators. -/
theorem lookup_binaryNumbers
    (kind : Kind) :
    Machine.binaryNumbers.lookup kind = (ofKind? kind).map number := by
  cases kind with
  | mark sign => cases sign <;> rfl
  | _ => rfl

end BinaryOperator

namespace Expr

open Machine

/-- An expression laid out as nodes. -/
def node : Expr → ExprNode
  | .assign name value => .assign name value.node
  | .binary token operator left right => .binary token operator.number left.node right.node
  | .group inner => .group inner.node
  | .literal value => .literal value.datum
  | .conditional condition thenValue elseValue =>
      .conditional condition.node thenValue.node elseValue.node
  | .unary token operator operand => .unary token operator.number operand.node
  | .lookup name => .lookup name

/-- The place of an expression that may be left out. -/
def optionalNode : Option Expr → ExprNode
  | none => .missing
  | some expr => expr.node

/-- An operator that its token stands for is built. -/
theorem ofUnary_node
    {token : Token}
    {operator : UnaryOperator}
    (signed : UnaryOperator.ofKind? token.kind = some operator)
    (operand : Expr) :
    ExprNode.ofUnary token operand.node = .ok (Expr.unary token operator operand).node := by
  simp [ExprNode.ofUnary, UnaryOperator.lookup_unaryNumbers, signed, node]

/-- An operator that its token stands for is built. -/
theorem ofBinary_node
    {token : Token}
    {operator : BinaryOperator}
    (signed : BinaryOperator.ofKind? token.kind = some operator)
    (left right : Expr) :
    ExprNode.ofBinary token left.node right.node =
      .ok (Expr.binary token operator left right).node := by
  simp [ExprNode.ofBinary, BinaryOperator.lookup_binaryNumbers, signed, node]

end Expr

namespace Stmt

open Machine

mutual

/-- A statement laid out as nodes. -/
def node : Stmt → StmtNode
  | .block body => .block (nodes body)
  | .leave word => .leave word
  | .expression value => .expression value.node
  | .ifThen condition thenBranch => .conditional condition.node thenBranch.node .missing
  | .ifElse condition thenBranch elseBranch =>
      .conditional condition.node thenBranch.node elseBranch.node
  | .print value => .print value.node
  | .declare name initial => .declare name (Expr.optionalNode initial)
  | .loop condition body => .loop condition.node body.node

/-- Statements laid out as nodes. -/
def nodes : List Stmt → List StmtNode
  | [] => []
  | first :: rest => first.node :: nodes rest

end

/-- Statements are laid out one by one. -/
@[simp]
theorem nodes_append
    (first second : List Stmt) :
    nodes (first ++ second) = nodes first ++ nodes second := by
  induction first with
  | nil => rfl
  | cons statement rest inductionHypothesis =>
      simp [nodes, inductionHypothesis]

end Stmt

namespace Machine

/-- An expression that was built is laid out from a tree. -/
theorem ExprNode.IsBuilt.exists_node
    {node : ExprNode}
    (built : node.IsBuilt) :
    ∃ expr : Expr, node = expr.node := by
  induction built with
  | assign name _ valueLaidOut =>
      obtain ⟨value, rfl⟩ := valueLaidOut
      exact ⟨.assign name value, rfl⟩
  | @binary token _ _ _ _ _ builds leftLaidOut rightLaidOut =>
      obtain ⟨left, rfl⟩ := leftLaidOut
      obtain ⟨right, rfl⟩ := rightLaidOut
      cases signed : BinaryOperator.ofKind? token.kind with
      | none => simp [ofBinary, BinaryOperator.lookup_binaryNumbers, signed] at builds
      | some operator =>
          rw [Expr.ofBinary_node signed] at builds
          exact ⟨.binary token operator left right, (Except.ok.inj builds).symm⟩
  | group _ innerLaidOut =>
      obtain ⟨inner, rfl⟩ := innerLaidOut
      exact ⟨.group inner, rfl⟩
  | literal value => exact ⟨.literal value, rfl⟩
  | conditional _ _ _ conditionLaidOut thenLaidOut elseLaidOut =>
      obtain ⟨condition, rfl⟩ := conditionLaidOut
      obtain ⟨thenValue, rfl⟩ := thenLaidOut
      obtain ⟨elseValue, rfl⟩ := elseLaidOut
      exact ⟨.conditional condition thenValue elseValue, rfl⟩
  | @unary token _ _ _ builds operandLaidOut =>
      obtain ⟨operand, rfl⟩ := operandLaidOut
      cases signed : UnaryOperator.ofKind? token.kind with
      | none => simp [ofUnary, UnaryOperator.lookup_unaryNumbers, signed] at builds
      | some operator =>
          rw [Expr.ofUnary_node signed] at builds
          exact ⟨.unary token operator operand, (Except.ok.inj builds).symm⟩
  | lookup name => exact ⟨.lookup name, rfl⟩

/-- Nodes that are laid out one by one are laid out together. -/
theorem exists_nodes
    {body : List StmtNode}
    (laidOut : ∀ node ∈ body, ∃ statement : Stmt, node = statement.node) :
    ∃ statements, body = Stmt.nodes statements := by
  induction body with
  | nil => exact ⟨[], rfl⟩
  | cons first rest inductionHypothesis =>
      obtain ⟨statement, rfl⟩ := laidOut first (by simp)
      obtain ⟨statements, rfl⟩ :=
        inductionHypothesis fun node found => laidOut node (List.mem_cons_of_mem _ found)
      exact ⟨statement :: statements, rfl⟩

/-- A statement that was built is laid out from a tree. -/
theorem StmtNode.IsBuilt.exists_node
    {node : StmtNode}
    (built : node.IsBuilt) :
    ∃ statement : Stmt, node = statement.node := by
  induction built with
  | block _ bodyLaidOut =>
      obtain ⟨statements, rfl⟩ := exists_nodes bodyLaidOut
      exact ⟨.block statements, rfl⟩
  | leave word => exact ⟨.leave word, rfl⟩
  | expression valueBuilt =>
      obtain ⟨value, rfl⟩ := valueBuilt.exists_node
      exact ⟨.expression value, rfl⟩
  | ifThen conditionBuilt _ thenLaidOut =>
      obtain ⟨condition, rfl⟩ := conditionBuilt.exists_node
      obtain ⟨thenBranch, rfl⟩ := thenLaidOut
      exact ⟨.ifThen condition thenBranch, rfl⟩
  | ifElse conditionBuilt _ _ thenLaidOut elseLaidOut =>
      obtain ⟨condition, rfl⟩ := conditionBuilt.exists_node
      obtain ⟨thenBranch, rfl⟩ := thenLaidOut
      obtain ⟨elseBranch, rfl⟩ := elseLaidOut
      exact ⟨.ifElse condition thenBranch elseBranch, rfl⟩
  | print valueBuilt =>
      obtain ⟨value, rfl⟩ := valueBuilt.exists_node
      exact ⟨.print value, rfl⟩
  | declare name => exact ⟨.declare name none, rfl⟩
  | declareWith name initialBuilt =>
      obtain ⟨initial, rfl⟩ := initialBuilt.exists_node
      exact ⟨.declare name (some initial), rfl⟩
  | loop conditionBuilt _ bodyLaidOut =>
      obtain ⟨condition, rfl⟩ := conditionBuilt.exists_node
      obtain ⟨body, rfl⟩ := bodyLaidOut
      exact ⟨.loop condition body, rfl⟩

end Machine

end BlockScript
