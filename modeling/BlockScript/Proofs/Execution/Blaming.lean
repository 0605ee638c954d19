import BlockScript.Execution.Statement
import BlockScript.Proofs.Grammar.Phrase

namespace BlockScript

/-!
# What runtime errors blame

A runtime error blames a name or an operator that the executed tree keeps, and a tree
keeps only tokens of the phrase that it stands for.  What the scopes hold may decide
whether there is an error, but never adds a token that it could blame.
-/

/-- Every token that an expression keeps is allowed. -/
def Expr.KeepsOnly
    (allowed : Token → Prop) :
    Expr → Prop
  | .assign name value => allowed name ∧ value.KeepsOnly allowed
  | .binary token _ left right =>
      allowed token ∧ left.KeepsOnly allowed ∧ right.KeepsOnly allowed
  | .group inner => inner.KeepsOnly allowed
  | .literal _ => True
  | .conditional condition thenValue elseValue =>
      condition.KeepsOnly allowed ∧ thenValue.KeepsOnly allowed ∧ elseValue.KeepsOnly allowed
  | .unary token _ operand => allowed token ∧ operand.KeepsOnly allowed
  | .lookup name => allowed name

mutual

/-- Every token that a statement keeps is allowed. -/
def Stmt.KeepsOnly
    (allowed : Token → Prop) :
    Stmt → Prop
  | .block body => Stmt.KeepsOnlyAll allowed body
  | .leave word => allowed word
  | .expression value => value.KeepsOnly allowed
  | .ifThen condition thenBranch =>
      condition.KeepsOnly allowed ∧ thenBranch.KeepsOnly allowed
  | .ifElse condition thenBranch elseBranch =>
      condition.KeepsOnly allowed ∧ thenBranch.KeepsOnly allowed ∧ elseBranch.KeepsOnly allowed
  | .print value => value.KeepsOnly allowed
  | .declare name none => allowed name
  | .declare name (some initial) => allowed name ∧ initial.KeepsOnly allowed
  | .loop condition body => condition.KeepsOnly allowed ∧ body.KeepsOnly allowed

/-- Every token that statements keep is allowed. -/
def Stmt.KeepsOnlyAll
    (allowed : Token → Prop) :
    List Stmt → Prop
  | [] => True
  | first :: rest => first.KeepsOnly allowed ∧ Stmt.KeepsOnlyAll allowed rest

end

variable {allowed : Token → Prop}

namespace Evaluation

variable {depth : Nat}

/-- An evaluation that fails blames an allowed token. -/
def BlamesOnly
    (allowed : Token → Prop)
    (evaluation : Evaluation depth) :
    Prop :=
  ∀ error, evaluation.result = .error error → allowed error.token

/-- Going on with a value blames what the evaluations blame. -/
theorem BlamesOnly.andThen
    {evaluation : Evaluation depth}
    {next : Value → Chain depth → Evaluation depth}
    (blames : evaluation.BlamesOnly allowed)
    (goesOn : ∀ value chain, (next value chain).BlamesOnly allowed) :
    (evaluation.andThen next).BlamesOnly allowed := by
  obtain ⟨result, chain⟩ := evaluation
  cases result with
  | error error => exact blames
  | ok value => exact goesOn value chain

/-- An operator blames its own token. -/
theorem blamesOnly_ofOperation
    {token : Token}
    (allows : allowed token)
    (result : Except RuntimeFault Value)
    (chain : Chain depth) :
    (ofOperation token result chain).BlamesOnly allowed := by
  intro error fails
  cases result <;> cases fails
  exact allows

/-- Looking up a name blames that name. -/
theorem blamesOnly_lookUp
    {name : Token}
    (allows : allowed name)
    (chain : Chain depth) :
    (lookUp name chain).BlamesOnly allowed := by
  intro error fails
  unfold lookUp at fails
  dsimp only at fails
  split at fails <;> cases fails
  exact allows

/-- Assigning to a name blames that name. -/
theorem blamesOnly_assignTo
    {name : Token}
    (allows : allowed name)
    (value : Value)
    (chain : Chain depth) :
    (assignTo name value chain).BlamesOnly allowed := by
  intro error fails
  unfold assignTo at fails
  split at fails <;> cases fails
  exact allows

end Evaluation

/-- Evaluating an expression blames a token that it keeps. -/
theorem Expr.KeepsOnly.eval
    {depth : Nat}
    {expr : Expr}
    (keeps : expr.KeepsOnly allowed)
    (chain : Chain depth) :
    (expr.eval chain).BlamesOnly allowed := by
  induction expr generalizing chain with
  | assign name value inductionHypothesis =>
      exact (inductionHypothesis keeps.2 chain).andThen fun assigned chain =>
        Evaluation.blamesOnly_assignTo keeps.1 assigned chain
  | binary token operator left right leftHypothesis rightHypothesis =>
      refine (leftHypothesis keeps.2.1 chain).andThen fun leftValue chain => ?_
      exact (rightHypothesis keeps.2.2 chain).andThen fun rightValue chain =>
        Evaluation.blamesOnly_ofOperation keeps.1 _ chain
  | group inner inductionHypothesis =>
      exact inductionHypothesis keeps chain
  | literal value =>
      rintro _ ⟨⟩
  | conditional condition thenValue elseValue conditionHypothesis thenHypothesis elseHypothesis =>
      refine (conditionHypothesis keeps.1 chain).andThen fun conditionValue chain => ?_
      split
      · exact thenHypothesis keeps.2.1 chain
      · exact elseHypothesis keeps.2.2 chain
  | unary token operator operand inductionHypothesis =>
      exact (inductionHypothesis keeps.2 chain).andThen fun operandValue chain =>
        Evaluation.blamesOnly_ofOperation keeps.1 _ chain
  | lookup name =>
      exact Evaluation.blamesOnly_lookUp keeps chain

/-- An outcome that is a failure blames an allowed token. -/
def Outcome.BlamesOnly
    (allowed : Token → Prop) :
    Outcome → Prop
  | .failed error => allowed error.token
  | .normal | .left | .exhausted => True

namespace World

variable {depth : Nat}

/-- A block blames what is run in it blames. -/
theorem blamesOnly_inBlock
    (world : World depth)
    {run : World (depth + 1) → Outcome × World (depth + 1)}
    (blames : ∀ inner, (run inner).1.BlamesOnly allowed) :
    (world.inBlock run).1.BlamesOnly allowed :=
  blames { chain := world.chain.enter, lines := world.lines }

/-- Going on with the value of an expression blames what both blame. -/
theorem blamesOnly_withValue
    (world : World depth)
    {expr : Expr}
    {next : Value → World depth → Outcome × World depth}
    (keeps : expr.KeepsOnly allowed)
    (goesOn : ∀ value after, (next value after).1.BlamesOnly allowed) :
    (world.withValue expr next).1.BlamesOnly allowed := by
  have blames := keeps.eval world.chain
  unfold withValue
  generalize expr.eval world.chain = evaluation at blames
  obtain ⟨result, chain⟩ := evaluation
  cases result with
  | error error => exact blames error rfl
  | ok value => exact goesOn value _

/-- A loop blames what its condition and its body blame. -/
theorem blamesOnly_repeatWhile
    {condition : Expr}
    {body : World depth → Outcome × World depth}
    (keeps : condition.KeepsOnly allowed)
    (blames : ∀ world, (body world).1.BlamesOnly allowed)
    (rounds : Nat)
    (world : World depth) :
    (repeatWhile condition body rounds world).1.BlamesOnly allowed := by
  induction rounds generalizing world with
  | zero =>
      exact trivial
  | succ rounds inductionHypothesis =>
      have tested := keeps.eval world.chain
      unfold repeatWhile
      generalize condition.eval world.chain = evaluation at tested
      obtain ⟨result, chain⟩ := evaluation
      cases result with
      | error error => exact tested error rfl
      | ok value =>
          dsimp only
          split
          · have round := blames { chain, lines := world.lines }
            generalize body { chain, lines := world.lines } = ending at round
            obtain ⟨outcome, after⟩ := ending
            cases outcome with
            | normal => exact inductionHypothesis after
            | failed error => exact round
            | _ => exact trivial
          · exact trivial

end World

namespace Stmt

mutual

/-- Executing a statement blames a token that it keeps. -/
theorem KeepsOnly.exec
    (policy : Policy) :
    (statement : Stmt) →
    statement.KeepsOnly allowed →
    {depth : Nat} →
    (world : World depth) →
    (exec policy statement world).1.BlamesOnly allowed
  | .block body, keeps, _, world => by
      simp only [Stmt.KeepsOnly] at keeps
      simp only [Stmt.exec]
      exact world.blamesOnly_inBlock fun inner => KeepsOnlyAll.execAll policy body keeps inner
  | .leave word, _, _, world => by
      simp only [Stmt.exec]
      exact trivial
  | .expression value, keeps, _, world => by
      simp only [Stmt.KeepsOnly] at keeps
      simp only [Stmt.exec]
      refine world.blamesOnly_withValue keeps fun result after => ?_
      split <;> exact trivial
  | .ifThen condition thenBranch, keeps, _, world => by
      simp only [Stmt.KeepsOnly] at keeps
      simp only [Stmt.exec]
      refine world.blamesOnly_withValue keeps.1 fun result after => ?_
      split
      · exact KeepsOnly.exec policy thenBranch keeps.2 after
      · exact trivial
  | .ifElse condition thenBranch elseBranch, keeps, _, world => by
      simp only [Stmt.KeepsOnly] at keeps
      simp only [Stmt.exec]
      refine world.blamesOnly_withValue keeps.1 fun result after => ?_
      split
      · exact KeepsOnly.exec policy thenBranch keeps.2.1 after
      · exact KeepsOnly.exec policy elseBranch keeps.2.2 after
  | .print value, keeps, _, world => by
      simp only [Stmt.KeepsOnly] at keeps
      simp only [Stmt.exec]
      exact world.blamesOnly_withValue keeps fun result after => trivial
  | .declare name none, _, _, world => by
      simp only [Stmt.exec]
      exact trivial
  | .declare name (some initial), keeps, _, world => by
      simp only [Stmt.KeepsOnly] at keeps
      simp only [Stmt.exec]
      exact world.blamesOnly_withValue keeps.2 fun result after => trivial
  | .loop condition body, keeps, _, world => by
      simp only [Stmt.KeepsOnly] at keeps
      simp only [Stmt.exec]
      exact World.blamesOnly_repeatWhile keeps.1
        (fun inner => KeepsOnly.exec policy body keeps.2 inner) policy.rounds world

/-- Executing statements blames a token that they keep. -/
theorem KeepsOnlyAll.execAll
    (policy : Policy) :
    (statements : List Stmt) →
    KeepsOnlyAll allowed statements →
    {depth : Nat} →
    (world : World depth) →
    (execAll policy statements world).1.BlamesOnly allowed
  | [], _, _, world => by
      simp only [Stmt.execAll]
      exact trivial
  | first :: rest, keeps, _, world => by
      simp only [Stmt.KeepsOnlyAll] at keeps
      have begins := KeepsOnly.exec policy first keeps.1 world
      simp only [Stmt.execAll]
      generalize Stmt.exec policy first world = ending at begins
      obtain ⟨outcome, after⟩ := ending
      cases outcome with
      | normal => exact KeepsOnlyAll.execAll policy rest keeps.2 after
      | failed error => exact begins
      | _ => exact trivial

end

/-- Executing a program blames a token that it keeps. -/
theorem KeepsOnlyAll.execProgram
    (policy : Policy)
    {statements : List Stmt}
    (keeps : KeepsOnlyAll allowed statements)
    (world : World 0) :
    (execProgram policy statements world).1.BlamesOnly allowed := by
  induction statements generalizing world with
  | nil =>
      exact trivial
  | cons first rest inductionHypothesis =>
      simp only [KeepsOnlyAll] at keeps
      have begins := KeepsOnly.exec policy first keeps.1 world
      simp only [Stmt.execProgram]
      generalize Stmt.exec policy first world = ending at begins
      obtain ⟨outcome, after⟩ := ending
      cases outcome with
      | normal => exact inductionHypothesis keeps.2 after
      | left => exact inductionHypothesis keeps.2 after
      | failed error => exact begins
      | exhausted => exact trivial

/-- A counting loop keeps the tokens of its parts. -/
theorem keepsOnly_forLoop
    {initial : Option Stmt}
    {condition step : Option Expr}
    {body : Stmt}
    (first : ∀ statement ∈ initial, statement.KeepsOnly allowed)
    (second : ∀ expr ∈ condition, expr.KeepsOnly allowed)
    (third : ∀ expr ∈ step, expr.KeepsOnly allowed)
    (repeated : body.KeepsOnly allowed) :
    (forLoop initial condition step body).KeepsOnly allowed := by
  cases initial <;> cases condition <;> cases step <;>
    simp_all [forLoop, KeepsOnly, KeepsOnlyAll, Expr.KeepsOnly]

end Stmt

namespace Grammar

/-- An expression keeps only tokens of its phrase. -/
theorem ExprPhrase.keepsOnly
    {level : Level}
    {tokens : List Token}
    {expr : Expr}
    {errors : List GrammarError}
    (phrase : ExprPhrase level tokens expr errors)
    (allows : ∀ token ∈ tokens, allowed token) :
    expr.KeepsOnly allowed := by
  induction phrase with
  | @atom token expr alone =>
      unfold exprOfToken? at alone
      split at alone <;> cases alone
      all_goals first | exact trivial | exact allows token List.mem_cons_self
  | group _ _ _ inner =>
      simp only [List.forall_mem_cons, List.forall_mem_append] at allows
      exact inner allows.2.1
  | unary _ _ operand =>
      simp only [List.forall_mem_cons] at allows
      exact ⟨allows.1, operand allows.2⟩
  | binary _ _ _ earlier last =>
      simp only [List.forall_mem_cons, List.forall_mem_append] at allows
      exact ⟨allows.2.1, earlier allows.1, last allows.2.2⟩
  | conditional _ _ _ _ _ tested chosen alternative =>
      simp only [List.forall_mem_cons, List.forall_mem_append] at allows
      exact ⟨tested allows.1, chosen allows.2.2.1, alternative allows.2.2.2.2⟩
  | @assign equals _ _ target value _ _ _ _ _ assigned source =>
      simp only [List.forall_mem_cons, List.forall_mem_append] at allows
      have targetKeeps := assigned allows.1
      have valueKeeps := source allows.2.2
      cases target with
      | lookup name => exact ⟨targetKeeps, valueKeeps⟩
      | _ => exact targetKeeps
  | loosen _ inner => exact inner allows

/-- An optional expression keeps only tokens of its phrase. -/
theorem OptionalPhrase.keepsOnly
    {tokens : List Token}
    {expr : Option Expr}
    {errors : List GrammarError}
    (phrase : OptionalPhrase tokens expr errors)
    (allows : ∀ token ∈ tokens, allowed token) :
    ∀ present ∈ expr, present.KeepsOnly allowed := by
  cases phrase with
  | missing => exact nofun
  | present value =>
      rintro _ ⟨⟩
      exact value.keepsOnly allows

/-- A declaration keeps only tokens of its phrase. -/
theorem VariablePhrase.keepsOnly
    {tokens : List Token}
    {statement : Stmt}
    {errors : List GrammarError}
    (phrase : VariablePhrase tokens statement errors)
    (allows : ∀ token ∈ tokens, allowed token) :
    statement.KeepsOnly allowed := by
  cases phrase with
  | bare =>
      simp only [List.forall_mem_cons] at allows
      simp only [Stmt.KeepsOnly]
      exact allows.2.1
  | initialized _ _ _ value =>
      simp only [List.forall_mem_cons, List.forall_mem_append] at allows
      simp only [Stmt.KeepsOnly]
      exact ⟨allows.2.1, value.keepsOnly allows.2.2.2.1⟩

/-- The first part of a loop header keeps only tokens of its phrase. -/
theorem InitialPhrase.keepsOnly
    {tokens : List Token}
    {initial : Option Stmt}
    {errors : List GrammarError}
    (phrase : InitialPhrase tokens initial errors)
    (allows : ∀ token ∈ tokens, allowed token) :
    ∀ statement ∈ initial, statement.KeepsOnly allowed := by
  cases phrase with
  | missing => exact nofun
  | declare declares =>
      rintro _ ⟨⟩
      exact declares.keepsOnly allows
  | expression value =>
      rintro _ ⟨⟩
      simp only [List.forall_mem_append] at allows
      simp only [Stmt.KeepsOnly]
      exact value.keepsOnly allows.1

mutual

/-- A statement keeps only tokens of its phrase. -/
theorem StatementPhrase.keepsOnly :
    ∀ {inLoop : Bool} {ending : Ending} {tokens : List Token} {statement : Stmt}
      {errors : List GrammarError},
      StatementPhrase inLoop ending tokens statement errors →
      (∀ token ∈ tokens, allowed token) →
      statement.KeepsOnly allowed
  | _, _, _, _, _, .block _ body _, allows => by
      simp only [List.forall_mem_cons, List.forall_mem_append] at allows
      simp only [Stmt.KeepsOnly]
      exact body.keepsOnly allows.2.1
  | _, _, _, _, _, .leave _ _, allows => by
      simp only [List.forall_mem_cons] at allows
      simp only [Stmt.KeepsOnly]
      exact allows.1
  | _, _, _, _, _, .expression value _, allows => by
      simp only [List.forall_mem_append] at allows
      simp only [Stmt.KeepsOnly]
      exact value.keepsOnly allows.1
  | _, _, _, _, _, .print _ value _, allows => by
      simp only [List.forall_mem_cons, List.forall_mem_append] at allows
      simp only [Stmt.KeepsOnly]
      exact value.keepsOnly allows.2.1
  | _, _, _, _, _, .ifThen _ _ tested _ chosen, allows => by
      simp only [List.forall_mem_cons, List.forall_mem_append] at allows
      obtain ⟨_, _, inCondition, _, inBranch⟩ := allows
      simp only [Stmt.KeepsOnly]
      exact ⟨tested.keepsOnly inCondition, chosen.keepsOnly inBranch⟩
  | _, _, _, _, _, .ifElse _ _ tested _ chosen _ alternative, allows => by
      simp only [List.forall_mem_cons, List.forall_mem_append] at allows
      obtain ⟨_, _, inCondition, _, inThen, _, inElse⟩ := allows
      simp only [Stmt.KeepsOnly]
      exact ⟨tested.keepsOnly inCondition, chosen.keepsOnly inThen,
        alternative.keepsOnly inElse⟩
  | _, _, _, _, _, .whileLoop _ _ tested _ repeated, allows => by
      simp only [List.forall_mem_cons, List.forall_mem_append] at allows
      obtain ⟨_, _, inCondition, _, inBody⟩ := allows
      simp only [Stmt.KeepsOnly]
      exact ⟨tested.keepsOnly inCondition, repeated.keepsOnly inBody⟩
  | _, _, _, _, _, .forLoop _ _ first second _ third _ repeated, allows => by
      simp only [List.forall_mem_cons, List.forall_mem_append] at allows
      obtain ⟨_, _, inInitial, inCondition, _, inStep, _, inBody⟩ := allows
      exact Stmt.keepsOnly_forLoop (first.keepsOnly inInitial) (second.keepsOnly inCondition)
        (third.keepsOnly inStep) (repeated.keepsOnly inBody)

/-- Statements keep only tokens of their phrase. -/
theorem BodyPhrase.keepsOnly :
    ∀ {inLoop : Bool} {tokens : List Token} {statements : List Stmt}
      {errors : List GrammarError},
      BodyPhrase inLoop tokens statements errors →
      (∀ token ∈ tokens, allowed token) →
      Stmt.KeepsOnlyAll allowed statements
  | _, _, _, _, .nil, _ => by
      simp only [Stmt.KeepsOnlyAll]
  | _, _, _, _, .declare first others, allows => by
      simp only [List.forall_mem_append] at allows
      simp only [Stmt.KeepsOnlyAll]
      exact ⟨first.keepsOnly allows.1, others.keepsOnly allows.2⟩
  | _, _, _, _, .statement first others, allows => by
      simp only [List.forall_mem_append] at allows
      simp only [Stmt.KeepsOnlyAll]
      exact ⟨first.keepsOnly allows.1, others.keepsOnly allows.2⟩

end

end Grammar

end BlockScript
