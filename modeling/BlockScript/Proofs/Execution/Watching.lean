import BlockScript.Proofs.Execution.Rounds

namespace BlockScript

/-!
# Watching an execution

An execution is watched by what its statements come to: the value that a print
statement prints and the value of an expression statement, each noted when it is
there.  Whether values are echoed plays no part in this.  Echo only chooses which
of these events are written, so executions with and without it go through the
same scopes to the same outcome, and each writes its choice of the same events.
-/

/-- What a statement has come to. -/
inductive Event where
  /-- A print statement had a value. -/
  | printed (value : Value)
  /-- An expression statement had a value. -/
  | valued (expr : Expr) (value : Value)
  deriving Repr, DecidableEq

namespace Event

/-- The line that an event writes, with echo or without it. -/
def line?
    (echo : Bool) :
    Event → Option Line
  | .printed value => some (.printed value.text)
  | .valued expr value =>
      if echo && !expr.isAssignment then
        some (.echoed value.text)
      else
        none

/-- The value of an expression statement that is no assignment. -/
def shownValue? : Event → Option Value
  | .printed _ => none
  | .valued expr value => if expr.isAssignment then none else some value

end Event

/-- The scopes and the events so far, the last event first. -/
structure WatchedWorld (depth : Nat) where
  chain : Chain depth
  events : List Event

namespace WatchedWorld

/-- What is seen of a watched world, with echo or without it. -/
def shown
    {depth : Nat}
    (echo : Bool)
    (world : WatchedWorld depth) :
    World depth where
  chain :=
    world.chain
  lines :=
    world.events.filterMap (Event.line? echo)

/-- Note an event. -/
def note
    {depth : Nat}
    (event : Event)
    (world : WatchedWorld depth) :
    WatchedWorld depth :=
  { world with events := event :: world.events }

/-- Bind a name in the innermost scope. -/
def define
    {depth : Nat}
    (name : String)
    (value : Value)
    (world : WatchedWorld depth) :
    WatchedWorld depth :=
  { world with chain := world.chain.define name value }

/-- Run something inside a scope of its own, which is dropped however it ends. -/
def inBlock
    {depth : Nat}
    (world : WatchedWorld depth)
    (run : WatchedWorld (depth + 1) → Outcome × WatchedWorld (depth + 1)) :
    Outcome × WatchedWorld depth :=
  let (outcome, inner) := run { world with chain := world.chain.enter }
  (outcome, { inner with chain := inner.chain.leave })

/-- Go on with the value of an expression, or fail with its error. -/
def withValue
    {depth : Nat}
    (world : WatchedWorld depth)
    (expr : Expr)
    (next : Value → WatchedWorld depth → Outcome × WatchedWorld depth) :
    Outcome × WatchedWorld depth :=
  let evaluation := expr.eval world.chain
  let after := { world with chain := evaluation.chain }
  match evaluation.result with
  | .ok value => next value after
  | .error error => (.failed error, after)

/-- Run the body as long as the condition holds, at most the given number of times. -/
def repeatWhile
    {depth : Nat}
    (condition : Expr)
    (body : WatchedWorld depth → Outcome × WatchedWorld depth) :
    Nat → WatchedWorld depth → Outcome × WatchedWorld depth
  | 0, world => (.exhausted, world)
  | rounds + 1, world =>
      world.withValue condition fun value tested =>
        if value.isTruthy then
          match body tested with
          | (.normal, after) => repeatWhile condition body rounds after
          | (.left, after) => (.normal, after)
          | (.failed error, after) => (.failed error, after)
          | (.exhausted, after) => (.exhausted, after)
        else
          (.normal, tested)

end WatchedWorld

namespace Stmt

mutual

/-- Execute a statement and watch it. -/
def watch
    (rounds : Nat) :
    Stmt → {depth : Nat} → WatchedWorld depth → Outcome × WatchedWorld depth
  | .block body, _, world => world.inBlock (watchAll rounds body)
  | .leave _, _, world => (.left, world)
  | .expression value, _, world =>
      world.withValue value fun result after =>
        (.normal, after.note (.valued value result))
  | .ifThen condition thenBranch, _, world =>
      world.withValue condition fun result after =>
        if result.isTruthy then
          watch rounds thenBranch after
        else
          (.normal, after)
  | .ifElse condition thenBranch elseBranch, _, world =>
      world.withValue condition fun result after =>
        if result.isTruthy then
          watch rounds thenBranch after
        else
          watch rounds elseBranch after
  | .print value, _, world =>
      world.withValue value fun result after =>
        (.normal, after.note (.printed result))
  | .declare name none, _, world => (.normal, world.define name.lexeme .nil)
  | .declare name (some initial), _, world =>
      world.withValue initial fun result after =>
        (.normal, after.define name.lexeme result)
  | .loop condition body, _, world =>
      WatchedWorld.repeatWhile condition (watch rounds body) rounds world

/-- Execute statements in order, as long as they end normally, and watch them. -/
def watchAll
    (rounds : Nat) :
    List Stmt → {depth : Nat} → WatchedWorld depth → Outcome × WatchedWorld depth
  | [], _, world => (.normal, world)
  | first :: rest, _, world =>
      match watch rounds first world with
      | (.normal, after) => watchAll rounds rest after
      | (.left, after) => (.left, after)
      | (.failed error, after) => (.failed error, after)
      | (.exhausted, after) => (.exhausted, after)

end

/-- Execute the statements of a program in the global scope and watch them. -/
def watchProgram
    (rounds : Nat) :
    List Stmt → WatchedWorld 0 → Outcome × WatchedWorld 0
  | [], world => (.normal, world)
  | first :: rest, world =>
      match watch rounds first world with
      | (.normal, after) => watchProgram rounds rest after
      | (.left, after) => watchProgram rounds rest after
      | (.failed error, after) => (.failed error, after)
      | (.exhausted, after) => (.exhausted, after)

end Stmt

/-! ## Echo only chooses what is written -/

/-- What is seen of an ending. -/
def shownEnding
    {depth : Nat}
    (echo : Bool)
    (ending : Outcome × WatchedWorld depth) :
    Outcome × World depth :=
  (ending.1, ending.2.shown echo)

/-- One way to run shows, with echo or without it, what another does. -/
def Shows
    {depth : Nat}
    (echo : Bool)
    (watched : WatchedWorld depth → Outcome × WatchedWorld depth)
    (run : World depth → Outcome × World depth) :
    Prop :=
  ∀ world, run (world.shown echo) = shownEnding echo (watched world)

namespace WatchedWorld

variable {depth : Nat} {echo : Bool}

/-- A block shows what runs inside it. -/
theorem shows_inBlock
    {watched : WatchedWorld (depth + 1) → Outcome × WatchedWorld (depth + 1)}
    {run : World (depth + 1) → Outcome × World (depth + 1)}
    (shows : Shows echo watched run) :
    Shows echo (fun world => world.inBlock watched) fun world => world.inBlock run := by
  intro world
  have inside := shows { world with chain := world.chain.enter }
  simp only [inBlock, World.inBlock, shownEnding, shown] at inside ⊢
  rw [inside]

/-- An expression shows what goes on with its value. -/
theorem shows_withValue
    (expr : Expr)
    {watched : Value → WatchedWorld depth → Outcome × WatchedWorld depth}
    {next : Value → World depth → Outcome × World depth}
    (shows : ∀ value, Shows echo (watched value) (next value)) :
    Shows echo (fun world => world.withValue expr watched)
      fun world => world.withValue expr next := by
  intro world
  simp only [withValue, World.withValue, shown]
  cases (expr.eval world.chain).result with
  | error error => rfl
  | ok value => exact shows value { world with chain := (expr.eval world.chain).chain }

/-- A loop shows what its body does. -/
theorem shows_repeatWhile
    (condition : Expr)
    {watched : WatchedWorld depth → Outcome × WatchedWorld depth}
    {body : World depth → Outcome × World depth}
    (shows : Shows echo watched body)
    (rounds : Nat) :
    Shows echo (repeatWhile condition watched rounds)
      (World.repeatWhile condition body rounds) := by
  induction rounds with
  | zero =>
      exact fun _ => rfl
  | succ rounds inductionHypothesis =>
      intro world
      rw [World.repeatWhile_succ, repeatWhile]
      refine shows_withValue condition (fun value tested => ?_) world
      split
      · rw [shows tested]
        generalize watched tested = ending
        obtain ⟨outcome, after⟩ := ending
        cases outcome with
        | normal => exact inductionHypothesis after
        | _ => rfl
      · rfl

end WatchedWorld

namespace Stmt

variable (policy : Policy)

mutual

/-- Executing a statement shows what is watched of it. -/
theorem shows_watch :
    (statement : Stmt) →
    {depth : Nat} →
    Shows policy.echo (fun world : WatchedWorld depth => statement.watch policy.rounds world)
      fun world => statement.exec policy world
  | .block body, _ => by
      simp only [exec, watch]
      exact WatchedWorld.shows_inBlock (shows_watchAll body)
  | .leave _, _ => by
      simp only [exec, watch]
      exact fun _ => rfl
  | .expression value, _ => by
      simp only [exec, watch]
      refine WatchedWorld.shows_withValue value fun result after => ?_
      split
      · rename_i isEchoed
        simp [shownEnding, WatchedWorld.shown, WatchedWorld.note, World.write, Event.line?,
          isEchoed]
      · rename_i isSilent
        simp [shownEnding, WatchedWorld.shown, WatchedWorld.note, Event.line?, isSilent]
  | .ifThen condition thenBranch, _ => by
      simp only [exec, watch]
      refine WatchedWorld.shows_withValue condition fun result after => ?_
      split
      · exact shows_watch thenBranch after
      · rfl
  | .ifElse condition thenBranch elseBranch, _ => by
      simp only [exec, watch]
      refine WatchedWorld.shows_withValue condition fun result after => ?_
      split
      · exact shows_watch thenBranch after
      · exact shows_watch elseBranch after
  | .print value, _ => by
      simp only [exec, watch]
      exact WatchedWorld.shows_withValue value fun _ _ => rfl
  | .declare name none, _ => by
      simp only [exec, watch]
      exact fun _ => rfl
  | .declare name (some initial), _ => by
      simp only [exec, watch]
      exact WatchedWorld.shows_withValue initial fun _ _ => rfl
  | .loop condition body, _ => by
      simp only [exec, watch]
      exact WatchedWorld.shows_repeatWhile condition (shows_watch body) policy.rounds

/-- Executing statements shows what is watched of them. -/
theorem shows_watchAll :
    (statements : List Stmt) →
    {depth : Nat} →
    Shows policy.echo (fun world : WatchedWorld depth => watchAll policy.rounds statements world)
      fun world => execAll policy statements world
  | [], _ => by
      simp only [execAll, watchAll]
      exact fun _ => rfl
  | first :: rest, _ => by
      intro world
      have firstShows := shows_watch first world
      simp only [execAll, watchAll] at firstShows ⊢
      rw [firstShows]
      generalize first.watch policy.rounds world = ending
      obtain ⟨outcome, after⟩ := ending
      cases outcome with
      | normal => exact shows_watchAll rest after
      | _ => rfl

end

/-- Executing a program shows what is watched of it. -/
theorem shows_watchProgram
    (statements : List Stmt) :
    Shows policy.echo (watchProgram policy.rounds statements) (execProgram policy statements) := by
  induction statements with
  | nil =>
      exact fun _ => rfl
  | cons first rest inductionHypothesis =>
      intro world
      have firstShows := shows_watch policy first world
      simp only [execProgram, watchProgram] at firstShows ⊢
      rw [firstShows]
      generalize first.watch policy.rounds world = ending
      obtain ⟨outcome, after⟩ := ending
      cases outcome with
      | normal => exact inductionHypothesis after
      | left => exact inductionHypothesis after
      | _ => rfl

end Stmt

end BlockScript
