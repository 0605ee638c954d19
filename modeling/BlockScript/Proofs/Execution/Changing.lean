import BlockScript.Proofs.Execution.Rounds

namespace BlockScript

/-!
# How executing a statement changes the scopes

A statement changes a chain of scopes only by assignments and declarations, and
drops the scope of each block that it has entered.  What holds of these steps, and
of any number of them one after another, therefore holds between the chain before
a statement and the chain behind it, however the statement ends.
-/

namespace Expr

/-- The names that an expression assigns to. -/
def assignedNames : Expr → List String
  | .assign name value => name.lexeme :: value.assignedNames
  | .binary _ _ left right => left.assignedNames ++ right.assignedNames
  | .group inner => inner.assignedNames
  | .literal _ => []
  | .conditional condition thenValue elseValue =>
      condition.assignedNames ++ (thenValue.assignedNames ++ elseValue.assignedNames)
  | .unary _ _ operand => operand.assignedNames
  | .lookup _ => []

end Expr

namespace Stmt

mutual

/-- The names that a statement assigns to, inside its blocks and outside. -/
def assignedNames : Stmt → List String
  | .block body => assignedNamesAll body
  | .leave _ => []
  | .expression value => value.assignedNames
  | .ifThen condition thenBranch => condition.assignedNames ++ thenBranch.assignedNames
  | .ifElse condition thenBranch elseBranch =>
      condition.assignedNames ++ (thenBranch.assignedNames ++ elseBranch.assignedNames)
  | .print value => value.assignedNames
  | .declare _ none => []
  | .declare _ (some initial) => initial.assignedNames
  | .loop condition body => condition.assignedNames ++ body.assignedNames

/-- The names that statements assign to. -/
def assignedNamesAll : List Stmt → List String
  | [] => []
  | first :: rest => first.assignedNames ++ assignedNamesAll rest

end

/-- The names that a statement declares outside its own blocks. -/
def openNames : Stmt → List String
  | .block _ => []
  | .leave _ => []
  | .expression _ => []
  | .ifThen _ thenBranch => thenBranch.openNames
  | .ifElse _ thenBranch elseBranch => thenBranch.openNames ++ elseBranch.openNames
  | .print _ => []
  | .declare name _ => [name.lexeme]
  | .loop _ body => body.openNames

end Stmt

/-- A relation between the chain before some steps and the chain behind them, which may declare. -/
abbrev ChainChange :=
  List String → {depth : Nat} → Chain depth → Chain depth → Prop

/--
What makes a relation hold between the chains before and behind a statement that
assigns to the given names only.
-/
structure FollowsChanges
    (MayAssign : String → Prop)
    (Changes : ChainChange) :
    Prop where
  refl :
    ∀ (declared : List String) {depth : Nat} (chain : Chain depth), Changes declared chain chain
  trans :
    ∀ {declared : List String} {depth : Nat} {before after last : Chain depth},
      Changes declared before after → Changes declared after last → Changes declared before last
  mono :
    ∀ {declared wider : List String} {depth : Nat} {before after : Chain depth},
      declared ⊆ wider → Changes declared before after → Changes wider before after
  assign :
    ∀ {name : String} {value : Value} {depth : Nat} {before after : Chain depth},
      MayAssign name → before.assign? name value = some after → Changes [] before after
  define :
    ∀ (name : String) (value : Value) {depth : Nat} (chain : Chain depth),
      Changes [name] chain (chain.define name value)
  /-- Whatever a block declares is dropped with its scope. -/
  leave :
    ∀ {declared : List String} {depth : Nat} {before : Chain depth} {inner : Chain (depth + 1)},
      Changes declared before.enter inner → Changes [] before inner.leave

namespace FollowsChanges

variable {MayAssign : String → Prop} {Changes : ChainChange} {depth : Nat}

section Expressions

/-- Going on behind an evaluation. -/
theorem andThen
    (follows : FollowsChanges MayAssign Changes)
    {chain : Chain depth}
    {evaluation : Evaluation depth}
    {next : Value → Chain depth → Evaluation depth}
    (evaluates : Changes [] chain evaluation.chain)
    (goesOn : ∀ value after, Changes [] after (next value after).chain) :
    Changes [] chain (evaluation.andThen next).chain := by
  unfold Evaluation.andThen
  split
  · exact follows.trans evaluates (goesOn _ _)
  · exact evaluates

/-- An expression changes a chain by its assignments. -/
theorem eval
    (follows : FollowsChanges MayAssign Changes)
    (expr : Expr)
    (may : ∀ name ∈ expr.assignedNames, MayAssign name)
    (chain : Chain depth) :
    Changes [] chain (expr.eval chain).chain := by
  induction expr generalizing chain with
  | assign name value inductionHypothesis =>
      rw [Expr.assignedNames, List.forall_mem_cons] at may
      refine follows.andThen (inductionHypothesis may.2 chain) fun assigned after => ?_
      unfold Evaluation.assignTo
      split
      · exact follows.assign may.1 ‹_›
      · exact follows.refl [] after
  | binary token operator left right leftHypothesis rightHypothesis =>
      rw [Expr.assignedNames, List.forall_mem_append] at may
      refine follows.andThen (leftHypothesis may.1 chain) fun leftValue after => ?_
      refine follows.andThen (rightHypothesis may.2 after) fun rightValue last => ?_
      exact follows.refl [] last
  | group inner inductionHypothesis =>
      exact inductionHypothesis may chain
  | literal value =>
      exact follows.refl [] chain
  | conditional condition thenValue elseValue conditionHypothesis thenHypothesis elseHypothesis =>
      rw [Expr.assignedNames, List.forall_mem_append, List.forall_mem_append] at may
      refine follows.andThen (conditionHypothesis may.1 chain) fun tested after => ?_
      split
      · exact thenHypothesis may.2.1 after
      · exact elseHypothesis may.2.2 after
  | unary token operator operand inductionHypothesis =>
      refine follows.andThen (inductionHypothesis may chain) fun operandValue after => ?_
      exact follows.refl [] after
  | lookup name =>
      exact follows.refl [] chain

end Expressions

section Worlds

variable {declared : List String}

/-- Going on with the value of an expression. -/
theorem withValue
    (follows : FollowsChanges MayAssign Changes)
    (world : World depth)
    {expr : Expr}
    (may : ∀ name ∈ expr.assignedNames, MayAssign name)
    {next : Value → World depth → Outcome × World depth}
    (goesOn : ∀ value after, Changes declared after.chain (next value after).2.chain) :
    Changes declared world.chain (world.withValue expr next).2.chain := by
  have evaluates : Changes declared world.chain (expr.eval world.chain).chain :=
    follows.mono (List.nil_subset _) (follows.eval expr may world.chain)
  unfold World.withValue
  dsimp only
  split
  · rename_i value _
    exact follows.trans evaluates
      (goesOn value { world with chain := (expr.eval world.chain).chain })
  · exact evaluates

/-- A block only changes the scopes around it. -/
theorem inBlock
    (follows : FollowsChanges MayAssign Changes)
    (world : World depth)
    {run : World (depth + 1) → Outcome × World (depth + 1)}
    (runs : ∀ inner, Changes declared inner.chain (run inner).2.chain) :
    Changes [] world.chain (world.inBlock run).2.chain :=
  follows.leave (runs { chain := world.chain.enter, lines := world.lines })

/-- A loop changes the scopes as its rounds do. -/
theorem repeatWhile
    (follows : FollowsChanges MayAssign Changes)
    {condition : Expr}
    (may : ∀ name ∈ condition.assignedNames, MayAssign name)
    {body : World depth → Outcome × World depth}
    (runs : ∀ world, Changes declared world.chain (body world).2.chain)
    (rounds : Nat)
    (world : World depth) :
    Changes declared world.chain (World.repeatWhile condition body rounds world).2.chain := by
  induction rounds generalizing world with
  | zero =>
      exact follows.refl declared world.chain
  | succ rounds inductionHypothesis =>
      rw [World.repeatWhile_succ]
      refine follows.withValue world may fun value tested => ?_
      have inside := runs tested
      split
      · generalize body tested = ending at inside
        obtain ⟨outcome, after⟩ := ending
        cases outcome with
        | normal => exact follows.trans inside (inductionHypothesis after)
        | _ => exact inside
      · exact follows.refl declared tested.chain

end Worlds

mutual

/-- However a statement ends, it has declared only in the innermost scope, and only open names. -/
theorem exec
    (follows : FollowsChanges MayAssign Changes)
    (policy : Policy) :
    (statement : Stmt) →
    (∀ name ∈ statement.assignedNames, MayAssign name) →
    {depth : Nat} →
    (world : World depth) →
    Changes statement.openNames world.chain (statement.exec policy world).2.chain
  | .block body, may, _, world => by
      rw [Stmt.assignedNames] at may
      simp only [Stmt.exec]
      exact follows.inBlock world (follows.execAll policy body may)
  | .leave word, _, _, world => by
      simp only [Stmt.exec]
      exact follows.refl _ world.chain
  | .expression value, may, _, world => by
      rw [Stmt.assignedNames] at may
      simp only [Stmt.exec]
      refine follows.withValue world may fun result after => ?_
      split <;> exact follows.refl _ after.chain
  | .ifThen condition thenBranch, may, _, world => by
      rw [Stmt.assignedNames, List.forall_mem_append] at may
      simp only [Stmt.exec]
      refine follows.withValue world may.1 fun result after => ?_
      split
      · exact follows.exec policy thenBranch may.2 after
      · exact follows.refl _ after.chain
  | .ifElse condition thenBranch elseBranch, may, _, world => by
      rw [Stmt.assignedNames, List.forall_mem_append, List.forall_mem_append] at may
      simp only [Stmt.exec]
      refine follows.withValue world may.1 fun result after => ?_
      split
      · exact follows.mono (List.subset_append_left _ _)
          (follows.exec policy thenBranch may.2.1 after)
      · exact follows.mono (List.subset_append_right _ _)
          (follows.exec policy elseBranch may.2.2 after)
  | .print value, may, _, world => by
      rw [Stmt.assignedNames] at may
      simp only [Stmt.exec]
      exact follows.withValue world may fun result after => follows.refl _ after.chain
  | .declare name none, _, _, world => by
      simp only [Stmt.exec]
      exact follows.define name.lexeme .nil world.chain
  | .declare name (some initial), may, _, world => by
      rw [Stmt.assignedNames] at may
      simp only [Stmt.exec]
      exact follows.withValue world may fun result after =>
        follows.define name.lexeme result after.chain
  | .loop condition body, may, _, world => by
      rw [Stmt.assignedNames, List.forall_mem_append] at may
      simp only [Stmt.exec]
      exact follows.repeatWhile may.1 (follows.exec policy body may.2) policy.rounds world

/-- The statements of a block declare only in the innermost scope, and only open names. -/
theorem execAll
    (follows : FollowsChanges MayAssign Changes)
    (policy : Policy) :
    (statements : List Stmt) →
    (∀ name ∈ Stmt.assignedNamesAll statements, MayAssign name) →
    {depth : Nat} →
    (world : World depth) →
    Changes (statements.flatMap Stmt.openNames) world.chain
      (Stmt.execAll policy statements world).2.chain
  | [], _, _, world => by
      simp only [Stmt.execAll]
      exact follows.refl _ world.chain
  | first :: rest, may, _, world => by
      rw [Stmt.assignedNamesAll, List.forall_mem_append] at may
      have inFirst :=
        follows.mono (List.subset_append_left first.openNames (rest.flatMap Stmt.openNames))
          (follows.exec policy first may.1 world)
      simp only [Stmt.execAll, List.flatMap_cons]
      generalize first.exec policy world = ending at inFirst
      obtain ⟨outcome, after⟩ := ending
      cases outcome with
      | normal =>
          have inRest := follows.execAll policy rest may.2 after
          exact follows.trans inFirst (follows.mono (List.subset_append_right _ _) inRest)
      | _ => exact inFirst

end

end FollowsChanges

end BlockScript
