import BlockScript.Execution.Statement
import BlockScript.Proofs.Reading.Shifting

namespace BlockScript

/-!
# Executing statements further down

Statements whose tokens are further down do the same, and an error they end with
blames the shifted token.  Lines written before stay below those that a
statement writes, and do not matter to it.
-/

/-- A runtime error whose token is further down. -/
def RuntimeError.shifted
    (lines : Nat)
    (error : RuntimeError) :
    RuntimeError :=
  { error with token := error.token.shifted lines }

/-- An error that is not moved stays where it is. -/
theorem RuntimeError.shifted_zero
    (error : RuntimeError) :
    error.shifted 0 = error := by
  simp [RuntimeError.shifted, Token.shifted]

/-- An outcome whose error is further down. -/
def Outcome.shifted
    (lines : Nat) :
    Outcome → Outcome
  | .normal => .normal
  | .left => .left
  | .failed error => .failed (error.shifted lines)
  | .exhausted => .exhausted

/-- The same scopes, with lines that were written before. -/
def World.behind
    {depth : Nat}
    (written : List Line)
    (world : World depth) :
    World depth :=
  { world with lines := world.lines ++ written }

/-- How an execution ends further down, with lines that were written before. -/
def lifted
    {depth : Nat}
    (lines : Nat)
    (written : List Line)
    (ending : Outcome × World depth) :
    Outcome × World depth :=
  (ending.1.shifted lines, ending.2.behind written)

namespace Evaluation

/-- An evaluation whose error is further down. -/
def shifted
    {depth : Nat}
    (lines : Nat)
    (evaluation : Evaluation depth) :
    Evaluation depth where
  result :=
    match evaluation.result with
    | .ok value => .ok value
    | .error error => .error (error.shifted lines)
  chain :=
    evaluation.chain

/-- Going on behind a shifted evaluation is going on further down. -/
theorem andThen_shifted
    {depth : Nat}
    {lines : Nat}
    (evaluation : Evaluation depth)
    {next further : Value → Chain depth → Evaluation depth}
    (goesOn : ∀ value chain, further value chain = (next value chain).shifted lines) :
    (evaluation.shifted lines).andThen further = (evaluation.andThen next).shifted lines := by
  obtain ⟨result, chain⟩ := evaluation
  cases result with
  | error error => rfl
  | ok value => exact goesOn value chain

/-- The fault of an operator further down blames its shifted token. -/
theorem ofOperation_shifted
    {depth : Nat}
    (lines : Nat)
    (token : Token)
    (result : Except RuntimeFault Value)
    (chain : Chain depth) :
    ofOperation (token.shifted lines) result chain =
      (ofOperation token result chain).shifted lines := by
  cases result <;> rfl

/-- A name further down has the same value. -/
theorem lookUp_shifted
    {depth : Nat}
    (lines : Nat)
    (name : Token)
    (chain : Chain depth) :
    lookUp (name.shifted lines) chain = (lookUp name chain).shifted lines := by
  unfold lookUp
  rw [Token.lexeme_shifted]
  cases chain.get? name.lexeme <;> rfl

/-- A name further down is assigned in the same scope. -/
theorem assignTo_shifted
    {depth : Nat}
    (lines : Nat)
    (name : Token)
    (value : Value)
    (chain : Chain depth) :
    assignTo (name.shifted lines) value chain = (assignTo name value chain).shifted lines := by
  unfold assignTo
  rw [Token.lexeme_shifted]
  cases chain.assign? name.lexeme value <;> rfl

end Evaluation

/-- An expression further down has the same value, or fails further down. -/
theorem Expr.eval_shifted
    {depth : Nat}
    (lines : Nat)
    (expr : Expr)
    (chain : Chain depth) :
    (expr.shifted lines).eval chain = (expr.eval chain).shifted lines := by
  induction expr generalizing chain with
  | assign name value inductionHypothesis =>
      simp only [Expr.shifted, Expr.eval]
      rw [inductionHypothesis]
      exact Evaluation.andThen_shifted _ fun assigned chain =>
        Evaluation.assignTo_shifted lines name assigned chain
  | binary token operator left right leftHypothesis rightHypothesis =>
      simp only [Expr.shifted, Expr.eval]
      rw [leftHypothesis]
      refine Evaluation.andThen_shifted _ fun leftValue chain => ?_
      rw [rightHypothesis]
      exact Evaluation.andThen_shifted _ fun rightValue chain =>
        Evaluation.ofOperation_shifted lines token _ chain
  | group inner inductionHypothesis =>
      exact inductionHypothesis chain
  | literal value =>
      rfl
  | conditional condition thenValue elseValue conditionHypothesis thenHypothesis elseHypothesis =>
      simp only [Expr.shifted, Expr.eval]
      rw [conditionHypothesis]
      refine Evaluation.andThen_shifted _ fun conditionValue chain => ?_
      by_cases holds : conditionValue.isTruthy = true
      · rw [if_pos holds, if_pos holds, thenHypothesis]
      · rw [if_neg holds, if_neg holds, elseHypothesis]
  | unary token operator operand inductionHypothesis =>
      simp only [Expr.shifted, Expr.eval]
      rw [inductionHypothesis]
      exact Evaluation.andThen_shifted _ fun operandValue chain =>
        Evaluation.ofOperation_shifted lines token _ chain
  | lookup name =>
      exact Evaluation.lookUp_shifted lines name chain

namespace World

variable {depth lines : Nat} {written : List Line}

/-- A block further down ends further down. -/
theorem inBlock_behind
    (world : World depth)
    {run further : World (depth + 1) → Outcome × World (depth + 1)}
    (lifts : ∀ inner, further (inner.behind written) = lifted lines written (run inner)) :
    (world.behind written).inBlock further = lifted lines written (world.inBlock run) := by
  have begins := lifts { chain := world.chain.enter, lines := world.lines }
  simp only [inBlock, behind] at begins ⊢
  rw [begins]
  rfl

/-- Going on with the value of an expression further down. -/
theorem withValue_behind
    (world : World depth)
    (expr : Expr)
    {next further : Value → World depth → Outcome × World depth}
    (lifts :
      ∀ value after, further value (after.behind written) = lifted lines written (next value after)) :
    (world.behind written).withValue (expr.shifted lines) further =
      lifted lines written (world.withValue expr next) := by
  have value := expr.eval_shifted lines world.chain
  unfold withValue
  simp only [behind] at value ⊢
  rw [value]
  generalize expr.eval world.chain = evaluation
  obtain ⟨result, chain⟩ := evaluation
  cases result with
  | error error => rfl
  | ok value => exact lifts value { chain, lines := world.lines }

/-- A loop further down ends further down. -/
theorem repeatWhile_behind
    (condition : Expr)
    {body further : World depth → Outcome × World depth}
    (lifts : ∀ world, further (world.behind written) = lifted lines written (body world))
    (rounds : Nat)
    (world : World depth) :
    repeatWhile (condition.shifted lines) further rounds (world.behind written) =
      lifted lines written (repeatWhile condition body rounds world) := by
  induction rounds generalizing world with
  | zero =>
      rfl
  | succ rounds inductionHypothesis =>
      have value := condition.eval_shifted lines world.chain
      unfold repeatWhile
      simp only [behind] at value ⊢
      rw [value]
      generalize condition.eval world.chain = evaluation
      obtain ⟨result, chain⟩ := evaluation
      cases result with
      | error error => rfl
      | ok value =>
          have round := lifts { chain, lines := world.lines }
          simp only [Evaluation.shifted, behind] at round ⊢
          by_cases holds : value.isTruthy = true
          · rw [if_pos holds, if_pos holds, round]
            generalize body { chain, lines := world.lines } = ending
            obtain ⟨outcome, after⟩ := ending
            cases outcome with
            | normal => exact inductionHypothesis after
            | _ => rfl
          · rw [if_neg holds, if_neg holds]
            rfl

end World

namespace Stmt

variable {lines : Nat} {written : List Line}

/-- Shifting an expression does not make it an assignment. -/
theorem isAssignment_shifted
    (expr : Expr) :
    (expr.shifted lines).isAssignment = expr.isAssignment := by
  cases expr <;> rfl

mutual

/-- A statement further down ends further down. -/
theorem exec_shifted
    (policy : Policy) :
    (statement : Stmt) →
    {depth : Nat} →
    (world : World depth) →
    exec policy (statement.shifted lines) (world.behind written) =
      lifted lines written (exec policy statement world)
  | .block body, _, world => by
      simp only [shifted, exec]
      exact world.inBlock_behind fun inner => execAll_shifted policy body inner
  | .leave word, _, world => by
      simp only [shifted, exec]
      rfl
  | .expression value, _, world => by
      simp only [shifted, exec]
      refine world.withValue_behind value fun result after => ?_
      rw [isAssignment_shifted]
      by_cases echoes : (policy.echo && !value.isAssignment) = true
      · rw [if_pos echoes, if_pos echoes]
        rfl
      · rw [if_neg echoes, if_neg echoes]
        rfl
  | .ifThen condition thenBranch, _, world => by
      simp only [shifted, exec]
      refine world.withValue_behind condition fun result after => ?_
      by_cases holds : result.isTruthy = true
      · rw [if_pos holds, if_pos holds]
        exact exec_shifted policy thenBranch after
      · rw [if_neg holds, if_neg holds]
        rfl
  | .ifElse condition thenBranch elseBranch, _, world => by
      simp only [shifted, exec]
      refine world.withValue_behind condition fun result after => ?_
      by_cases holds : result.isTruthy = true
      · rw [if_pos holds, if_pos holds]
        exact exec_shifted policy thenBranch after
      · rw [if_neg holds, if_neg holds]
        exact exec_shifted policy elseBranch after
  | .print value, _, world => by
      simp only [shifted, exec]
      exact world.withValue_behind value fun result after => rfl
  | .declare name none, _, world => by
      simp only [shifted, exec, Option.map_none]
      rfl
  | .declare name (some initial), _, world => by
      simp only [shifted, exec, Option.map_some]
      exact world.withValue_behind initial fun result after => rfl
  | .loop condition body, _, world => by
      simp only [shifted, exec]
      exact World.repeatWhile_behind condition (fun inner => exec_shifted policy body inner)
        policy.rounds world

/-- Statements further down end further down. -/
theorem execAll_shifted
    (policy : Policy) :
    (statements : List Stmt) →
    {depth : Nat} →
    (world : World depth) →
    execAll policy (shiftedAll lines statements) (world.behind written) =
      lifted lines written (execAll policy statements world)
  | [], _, world => by
      simp only [shiftedAll, execAll]
      rfl
  | first :: rest, _, world => by
      simp only [shiftedAll, execAll]
      rw [exec_shifted policy first world]
      generalize exec policy first world = ending
      obtain ⟨outcome, after⟩ := ending
      cases outcome with
      | normal => exact execAll_shifted policy rest after
      | _ => rfl

end

/-- A program further down ends further down. -/
theorem execProgram_shifted
    (policy : Policy)
    (statements : List Stmt)
    (world : World 0) :
    execProgram policy (shiftedAll lines statements) (world.behind written) =
      lifted lines written (execProgram policy statements world) := by
  induction statements generalizing world with
  | nil =>
      simp only [shiftedAll, execProgram]
      rfl
  | cons first rest inductionHypothesis =>
      simp only [shiftedAll, execProgram]
      rw [exec_shifted policy first world]
      generalize exec policy first world = ending
      obtain ⟨outcome, after⟩ := ending
      cases outcome with
      | normal => exact inductionHypothesis after
      | left => exact inductionHypothesis after
      | _ => rfl

/-- A program goes on behind another one that ends normally. -/
theorem execProgram_append_of_normal
    {policy : Policy}
    {statements : List Stmt}
    {world after : World 0}
    (others : List Stmt)
    (ends : execProgram policy statements world = (.normal, after)) :
    execProgram policy (statements ++ others) world = execProgram policy others after := by
  induction statements generalizing world with
  | nil =>
      cases ends
      rfl
  | cons first rest inductionHypothesis =>
      simp only [List.cons_append, execProgram] at ends ⊢
      generalize exec policy first world = ending at ends ⊢
      obtain ⟨outcome, next⟩ := ending
      cases outcome with
      | normal => exact inductionHypothesis ends
      | left => exact inductionHypothesis ends
      | failed error => cases ends
      | exhausted => cases ends

/-- A program ends behind another one that fails where that one fails. -/
theorem execProgram_append_of_failed
    {policy : Policy}
    {statements : List Stmt}
    {world after : World 0}
    {error : RuntimeError}
    (others : List Stmt)
    (ends : execProgram policy statements world = (.failed error, after)) :
    execProgram policy (statements ++ others) world = (.failed error, after) := by
  induction statements generalizing world with
  | nil =>
      cases ends
  | cons first rest inductionHypothesis =>
      simp only [List.cons_append, execProgram] at ends ⊢
      generalize exec policy first world = ending at ends ⊢
      obtain ⟨outcome, next⟩ := ending
      cases outcome with
      | normal => exact inductionHypothesis ends
      | left => exact inductionHypothesis ends
      | failed error => exact ends
      | exhausted => cases ends

end Stmt

end BlockScript
