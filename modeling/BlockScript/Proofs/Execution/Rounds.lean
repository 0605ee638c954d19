import BlockScript.Execution.Statement

namespace BlockScript

/-!
# Enough rounds

An execution that does not run out of rounds ends as it would with more of them.
So an ending does not depend on how many rounds loops were given, as long as they
were enough.
-/

/-- A way to run ends as another does wherever the other does not run out of rounds. -/
def Outlasts
    {depth : Nat}
    (longer shorter : World depth → Outcome × World depth) :
    Prop :=
  ∀ world, (shorter world).1 ≠ .exhausted → longer world = shorter world

namespace World

variable {depth : Nat}

/-- A round of a loop evaluates the condition and, if it holds, goes on behind the body. -/
theorem repeatWhile_succ
    (condition : Expr)
    (body : World depth → Outcome × World depth)
    (rounds : Nat)
    (world : World depth) :
    repeatWhile condition body (rounds + 1) world =
      world.withValue condition fun value tested =>
        if value.isTruthy then
          match body tested with
          | (.normal, after) => repeatWhile condition body rounds after
          | (.left, after) => (.normal, after)
          | (.failed error, after) => (.failed error, after)
          | (.exhausted, after) => (.exhausted, after)
        else
          (.normal, tested) := by
  simp only [repeatWhile, withValue]
  cases (condition.eval world.chain).result <;> rfl

/-- A block lasts as long as what runs inside it. -/
theorem outlasts_inBlock
    {longer shorter : World (depth + 1) → Outcome × World (depth + 1)}
    (outlasts : Outlasts longer shorter) :
    Outlasts (fun world => world.inBlock longer) fun world => world.inBlock shorter := by
  intro world ends
  simp only [inBlock] at ends ⊢
  rw [outlasts _ ends]

/-- An expression lasts as long as what goes on with its value. -/
theorem outlasts_withValue
    (expr : Expr)
    {longer shorter : Value → World depth → Outcome × World depth}
    (outlasts : ∀ value, Outlasts (longer value) (shorter value)) :
    Outlasts (fun world => world.withValue expr longer)
      fun world => world.withValue expr shorter := by
  intro world ends
  simp only [withValue] at ends ⊢
  split
  · rename_i value evaluated
    rw [evaluated] at ends
    exact outlasts value _ ends
  · rfl

/-- What is run in either case of a value lasts as long as both of them. -/
theorem outlasts_ite
    (condition : Bool)
    {longer shorter otherLonger otherShorter : World depth → Outcome × World depth}
    (outlasts : Outlasts longer shorter)
    (otherwise : Outlasts otherLonger otherShorter) :
    Outlasts (fun world => if condition then longer world else otherLonger world)
      fun world => if condition then shorter world else otherShorter world := by
  cases condition with
  | true => exact outlasts
  | false => exact otherwise

/-- A loop with more rounds lasts as long as its body. -/
theorem outlasts_repeatWhile
    (condition : Expr)
    {longer shorter : World depth → Outcome × World depth}
    (outlasts : Outlasts longer shorter)
    {rounds more : Nat}
    (enough : rounds ≤ more) :
    Outlasts (repeatWhile condition longer more) (repeatWhile condition shorter rounds) := by
  induction rounds generalizing more with
  | zero =>
      intro world ends
      exact absurd rfl ends
  | succ rounds inductionHypothesis =>
      obtain ⟨fewer, rfl⟩ : ∃ fewer, more = fewer + 1 := ⟨more - 1, by omega⟩
      have others := inductionHypothesis (Nat.le_of_succ_le_succ enough)
      intro world
      rw [repeatWhile_succ, repeatWhile_succ]
      refine outlasts_withValue condition (fun value => ?_) world
      refine outlasts_ite value.isTruthy ?_ fun _ _ => rfl
      intro tested ends
      dsimp only at ends ⊢
      cases bodyEnds : shorter tested with
      | mk outcome after =>
          rw [bodyEnds] at ends
          -- A body that ran out of rounds would have ended the loop so, against `ends`.
          cases outcome with
          | exhausted => exact absurd rfl ends
          | normal =>
              rw [outlasts tested (by rw [bodyEnds]; exact nofun), bodyEnds]
              exact others after ends
          | left => rw [outlasts tested (by rw [bodyEnds]; exact nofun), bodyEnds]
          | failed error => rw [outlasts tested (by rw [bodyEnds]; exact nofun), bodyEnds]

end World

namespace Stmt

variable {policy : Policy} {more : Nat}

mutual

/-- A statement with more rounds ends as it does with enough of them. -/
theorem outlasts_exec
    (enough : policy.rounds ≤ more) :
    (statement : Stmt) →
    {depth : Nat} →
    Outlasts (fun world : World depth => statement.exec { policy with rounds := more } world)
      fun world => statement.exec policy world
  | .block body, _ => by
      simp only [exec]
      exact World.outlasts_inBlock (outlasts_execAll enough body)
  | .leave _, _ => by
      simp only [exec]
      exact fun _ _ => rfl
  | .expression value, _ => by
      simp only [exec]
      exact World.outlasts_withValue value fun _ _ _ => rfl
  | .ifThen condition thenBranch, _ => by
      simp only [exec]
      refine World.outlasts_withValue condition fun value => ?_
      exact World.outlasts_ite value.isTruthy (outlasts_exec enough thenBranch) fun _ _ => rfl
  | .ifElse condition thenBranch elseBranch, _ => by
      simp only [exec]
      refine World.outlasts_withValue condition fun value => ?_
      exact World.outlasts_ite value.isTruthy (outlasts_exec enough thenBranch)
        (outlasts_exec enough elseBranch)
  | .print value, _ => by
      simp only [exec]
      exact World.outlasts_withValue value fun _ _ _ => rfl
  | .declare name none, _ => by
      simp only [exec]
      exact fun _ _ => rfl
  | .declare name (some initial), _ => by
      simp only [exec]
      exact World.outlasts_withValue initial fun _ _ _ => rfl
  | .loop condition body, _ => by
      simp only [exec]
      exact World.outlasts_repeatWhile condition (outlasts_exec enough body) enough

/-- Statements with more rounds end as they do with enough of them. -/
theorem outlasts_execAll
    (enough : policy.rounds ≤ more) :
    (statements : List Stmt) →
    {depth : Nat} →
    Outlasts (fun world : World depth => execAll { policy with rounds := more } statements world)
      fun world => execAll policy statements world
  | [], _ => by
      simp only [execAll]
      exact fun _ _ => rfl
  | first :: rest, _ => by
      intro world ends
      have firstLasts := outlasts_exec enough first world
      simp only [execAll] at ends firstLasts ⊢
      generalize first.exec policy world = ending at ends firstLasts
      obtain ⟨outcome, after⟩ := ending
      cases outcome with
      | exhausted => exact absurd rfl ends
      | normal =>
          rw [firstLasts nofun]
          exact outlasts_execAll enough rest after ends
      | left => rw [firstLasts nofun]
      | failed error => rw [firstLasts nofun]

end

/-- A program with more rounds ends as it does with enough of them. -/
theorem outlasts_execProgram
    (enough : policy.rounds ≤ more)
    (statements : List Stmt) :
    Outlasts (execProgram { policy with rounds := more } statements)
      (execProgram policy statements) := by
  induction statements with
  | nil =>
      exact fun _ _ => rfl
  | cons first rest inductionHypothesis =>
      intro world ends
      have firstLasts := outlasts_exec enough first world
      simp only [execProgram] at ends firstLasts ⊢
      generalize first.exec policy world = ending at ends firstLasts
      obtain ⟨outcome, after⟩ := ending
      cases outcome with
      | exhausted => exact absurd rfl ends
      | normal =>
          rw [firstLasts nofun]
          exact inductionHypothesis after ends
      | left =>
          rw [firstLasts nofun]
          exact inductionHypothesis after ends
      | failed error => rw [firstLasts nofun]

end Stmt

end BlockScript
