import BlockScript.Execution.Statement

namespace BlockScript

/-!
# Leaving loops

A word that leaves a loop is stray in a statement when it lies in the body of no
loop of that statement.  A loop ends normally however its body leaves it, so only
a stray word can make a statement end by leaving.
-/

namespace Stmt

mutual

/-- The words of a statement that leave a loop and lie in the body of no loop of it. -/
def strayLeaves : Stmt → List Token
  | .block body => strayLeavesAll body
  | .leave word => [word]
  | .expression _ => []
  | .ifThen _ thenBranch => thenBranch.strayLeaves
  | .ifElse _ thenBranch elseBranch => thenBranch.strayLeaves ++ elseBranch.strayLeaves
  | .print _ => []
  | .declare .. => []
  | .loop .. => []

/-- The stray words of several statements, in order. -/
def strayLeavesAll : List Stmt → List Token
  | [] => []
  | first :: rest => first.strayLeaves ++ strayLeavesAll rest

end

/-- The stray words of several statements are those of each of them. -/
theorem strayLeavesAll_eq_flatMap
    (statements : List Stmt) :
    strayLeavesAll statements = statements.flatMap strayLeaves := by
  induction statements with
  | nil =>
      rfl
  | cons first rest inductionHypothesis =>
      rw [strayLeavesAll, inductionHypothesis, List.flatMap_cons]

/-- A counting loop has the stray words of its first part only. -/
@[simp]
theorem strayLeaves_forLoop
    (initial : Option Stmt)
    (condition step : Option Expr)
    (body : Stmt) :
    (forLoop initial condition step body).strayLeaves = strayLeavesAll initial.toList := by
  simp [forLoop, strayLeaves, strayLeavesAll_eq_flatMap]

end Stmt

namespace World

variable {depth : Nat}

/-- Going on with a value does not leave a loop unless what follows does. -/
theorem withValue_ne_left
    (world : World depth)
    (expr : Expr)
    {next : Value → World depth → Outcome × World depth}
    (stays : ∀ value after, (next value after).1 ≠ .left) :
    (world.withValue expr next).1 ≠ .left := by
  unfold withValue
  dsimp only
  split
  · exact stays _ _
  · exact nofun

/-- A loop ends normally when its body leaves it. -/
theorem repeatWhile_ne_left
    (condition : Expr)
    (body : World depth → Outcome × World depth)
    (rounds : Nat)
    (world : World depth) :
    (repeatWhile condition body rounds world).1 ≠ .left := by
  induction rounds generalizing world with
  | zero =>
      exact nofun
  | succ rounds inductionHypothesis =>
      unfold repeatWhile
      dsimp only
      split
      · exact nofun
      · split
        · split
          · exact inductionHypothesis _
          · exact nofun
          · exact nofun
          · exact nofun
        · exact nofun

end World

namespace Stmt

mutual

/-- A statement without stray words does not end by leaving a loop. -/
theorem exec_ne_left
    (policy : Policy) :
    (statement : Stmt) →
    statement.strayLeaves = [] →
    {depth : Nat} →
    (world : World depth) →
    (statement.exec policy world).1 ≠ .left
  | .block body, strayless, _, world => by
      simp only [strayLeaves] at strayless
      simp only [exec, World.inBlock]
      exact execAll_ne_left policy body strayless _
  | .leave word, strayless, _, _ => by
      simp [strayLeaves] at strayless
  | .expression value, _, _, world => by
      simp only [exec]
      refine world.withValue_ne_left value fun result after => ?_
      split <;> exact nofun
  | .ifThen condition thenBranch, strayless, _, world => by
      simp only [strayLeaves] at strayless
      simp only [exec]
      refine world.withValue_ne_left condition fun result after => ?_
      split
      · exact exec_ne_left policy thenBranch strayless after
      · exact nofun
  | .ifElse condition thenBranch elseBranch, strayless, _, world => by
      simp only [strayLeaves, List.append_eq_nil_iff] at strayless
      simp only [exec]
      refine world.withValue_ne_left condition fun result after => ?_
      split
      · exact exec_ne_left policy thenBranch strayless.1 after
      · exact exec_ne_left policy elseBranch strayless.2 after
  | .print value, _, _, world => by
      simp only [exec]
      exact world.withValue_ne_left value fun result after => nofun
  | .declare name none, _, _, world => by
      simp only [exec]
      exact nofun
  | .declare name (some initial), _, _, world => by
      simp only [exec]
      exact world.withValue_ne_left initial fun result after => nofun
  | .loop condition body, _, _, world => by
      simp only [exec]
      exact World.repeatWhile_ne_left condition _ policy.rounds world

/-- Statements without stray words do not end by leaving a loop. -/
theorem execAll_ne_left
    (policy : Policy) :
    (statements : List Stmt) →
    strayLeavesAll statements = [] →
    {depth : Nat} →
    (world : World depth) →
    (execAll policy statements world).1 ≠ .left
  | [], _, _, _ => by
      simp [execAll]
  | first :: rest, strayless, _, world => by
      simp only [strayLeavesAll, List.append_eq_nil_iff] at strayless
      have stays := exec_ne_left policy first strayless.1 world
      simp only [execAll]
      split
      · exact execAll_ne_left policy rest strayless.2 _
      · rename_i leaves
        rw [leaves] at stays
        exact absurd rfl stays
      · exact nofun
      · exact nofun

end

/-- A statement without stray words that comes to an end does so normally or by an error. -/
theorem exec_normal_or_failed
    {policy : Policy}
    {statement : Stmt}
    (strayless : statement.strayLeaves = [])
    {depth : Nat}
    {world : World depth}
    (ends : (statement.exec policy world).1 ≠ .exhausted) :
    (statement.exec policy world).1 = .normal ∨
      ∃ error, (statement.exec policy world).1 = .failed error := by
  have stays := exec_ne_left policy statement strayless world
  cases outcome : (statement.exec policy world).1 with
  | normal => exact .inl rfl
  | left => exact absurd outcome stays
  | failed error => exact .inr ⟨error, rfl⟩
  | exhausted => exact absurd outcome ends

/-- Behind a statement that ends normally the others are executed. -/
theorem execAll_cons_of_normal
    {policy : Policy}
    {first : Stmt}
    {depth : Nat}
    {world : World depth}
    (normal : (first.exec policy world).1 = .normal)
    (rest : List Stmt) :
    execAll policy (first :: rest) world = execAll policy rest (first.exec policy world).2 := by
  rw [execAll]
  generalize first.exec policy world = ending at normal
  obtain ⟨outcome, after⟩ := ending
  cases normal
  rfl

/-- A program never ends by leaving a loop. -/
theorem execProgram_ne_left
    (policy : Policy)
    (statements : List Stmt)
    (world : World 0) :
    (execProgram policy statements world).1 ≠ .left := by
  induction statements generalizing world with
  | nil =>
      simp [execProgram]
  | cons first rest inductionHypothesis =>
      rw [execProgram]
      split
      · exact inductionHypothesis _
      · exact inductionHypothesis _
      · simp
      · simp

/-- A program without stray words runs as the statements of a block do. -/
theorem execProgram_eq_execAll
    (policy : Policy)
    {statements : List Stmt}
    (strayless : ∀ statement ∈ statements, statement.strayLeaves = [])
    (world : World 0) :
    execProgram policy statements world = execAll policy statements world := by
  induction statements generalizing world with
  | nil =>
      simp only [execProgram, execAll]
  | cons first rest inductionHypothesis =>
      rw [List.forall_mem_cons] at strayless
      have stays := exec_ne_left policy first strayless.1 world
      simp only [execProgram, execAll]
      generalize first.exec policy world = ending at stays
      obtain ⟨outcome, after⟩ := ending
      cases outcome with
      | normal => exact inductionHypothesis strayless.2 after
      | left => exact absurd rfl stays
      | _ => rfl

end Stmt

end BlockScript
