import BlockScript.Proofs.Execution.Rounds
import BlockScript.Proofs.Session.Joining

namespace BlockScript

/-!
# The steps of a session

A session goes on in steps: a unit is run or the log is cleared.  Its history has
an entry for each step, with the record of what was run.  A history halts when
none of its units ran out of rounds, and then it is the same however many rounds
were given.
-/

/-- What reading a source reports: its lexical errors, then its grammar errors. -/
def Source.diagnostics
    (source : List Char) :
    List Diagnostic :=
  (Lexing.ofSource source).errors.map LexicalError.diagnostic ++
    (Program.ofTokens (Lexing.ofSource source).tokens).errors.map GrammarError.diagnostic

/-- What was read of a source, and its execution if it was executed. -/
def UnitRecord.ofExecution
    (source : List Char)
    (execution : Option Execution) :
    UnitRecord where
  lexing :=
    Lexing.ofSource source
  program :=
    Program.ofTokens (Lexing.ofSource source).tokens
  execution :=
    execution

/-- Statements that halt run alike with more rounds. -/
theorem Executes.of_enough_rounds
    {policy : Policy}
    {more : Nat}
    {globals after : Scope}
    {statements : List Stmt}
    {execution : Execution}
    (enough : policy.rounds ≤ more)
    (runs : Executes policy globals statements execution after)
    (halts : execution.outcome ≠ .exhausted) :
    Executes { policy with rounds := more } globals statements execution after := by
  unfold Executes at runs ⊢
  rw [Stmt.outlasts_execProgram enough statements _ (by rw [runs]; exact halts)]
  exact runs

namespace Session

/-- What is done to a session. -/
inductive Step where
  | unit (source : List Char)
  | reset
  deriving Repr, DecidableEq

/-- What a step leaves in the history. -/
inductive Entry where
  | ran (record : UnitRecord)
  | cleared
  deriving Repr

/-- The record of a unit that was run. -/
def Entry.record? : Entry → Option UnitRecord
  | .ran record => some record
  | .cleared => none

/-- The records of the units that were run, in order. -/
def recordsOf
    (history : List Entry) :
    List UnitRecord :=
  history.filterMap Entry.record?

/-- No unit of a history ran out of rounds. -/
def Halts
    (history : List Entry) :
    Prop :=
  ∀ record ∈ recordsOf history, record.outcome? ≠ some .exhausted

/-- Take one step. -/
def step
    (policy : Policy)
    (session : Session) :
    Step → Entry × Session
  | .unit source =>
      let (record, after) := session.run policy source
      (.ran record, after)
  | .reset => (.cleared, session.reset)

/-- Take steps one after another. -/
def follow
    (policy : Policy) :
    List Step → Session → List Entry × Session
  | [], session => ([], session)
  | first :: rest, session =>
      let (entry, after) := session.step policy first
      let (entries, last) := follow policy rest after
      (entry :: entries, last)

variable {policy : Policy} {session : Session} {source : List Char}

/-- A unit is not executed when the log has an error behind what reading it reports. -/
theorem run_of_hadError
    (policy : Policy)
    (gated : (session.log.reportAll (Source.diagnostics source)).hadError = true) :
    session.run policy source =
      (.ofExecution source none,
        { session with log := session.log.reportAll (Source.diagnostics source) }) := by
  unfold Source.diagnostics at gated ⊢
  simp only [run, gated, ↓reduceIte, UnitRecord.ofExecution]

/-- A unit runs as its statements do when the log has no error behind what reading it reports. -/
theorem run_of_executes
    {execution : Execution}
    {after : Scope}
    (isOpen : (session.log.reportAll (Source.diagnostics source)).hadError = false)
    (runs : Executes policy session.globals (Source.statements source) execution after) :
    session.run policy source =
      (.ofExecution source (some execution),
        { globals := after
          log := (session.log.reportAll (Source.diagnostics source)).reportAll
            (execution.error?.toList.map RuntimeError.diagnostic) }) := by
  have executed :
      Session.execute policy (Source.statements source)
          { session with log := session.log.reportAll (Source.diagnostics source) } = _ :=
    Executes.execute_eq runs
  unfold Source.diagnostics Source.statements at *
  simp only [run, isOpen, Bool.false_eq_true, ↓reduceIte, executed, UnitRecord.ofExecution]

/-- A unit that halts runs alike with more rounds. -/
theorem run_of_enough_rounds
    {more : Nat}
    (enough : policy.rounds ≤ more)
    (halts : (session.run policy source).1.outcome? ≠ some .exhausted) :
    session.run { policy with rounds := more } source = session.run policy source := by
  cases gate : (session.log.reportAll (Source.diagnostics source)).hadError with
  | true => rw [run_of_hadError _ gate, run_of_hadError _ gate]
  | false =>
      obtain ⟨execution, after, runs⟩ :=
        exists_executes policy session.globals (Source.statements source)
      rw [run_of_executes gate runs] at halts ⊢
      have ends : execution.outcome ≠ .exhausted := fun isExhausted => halts (by
        simp [UnitRecord.ofExecution, UnitRecord.outcome?, isExhausted])
      exact run_of_executes gate (runs.of_enough_rounds enough ends)

/-- A unit that halts runs alike with any number of rounds with which it halts. -/
theorem run_eq_of_halts
    {more : Nat}
    (halts : (session.run policy source).1.outcome? ≠ some .exhausted)
    (alsoHalts :
      (session.run { policy with rounds := more } source).1.outcome? ≠ some .exhausted) :
    session.run { policy with rounds := more } source = session.run policy source := by
  rcases Nat.le_total policy.rounds more with enough | enough
  · exact run_of_enough_rounds enough halts
  · exact (run_of_enough_rounds enough alsoHalts).symm

/-- The first step comes before the others. -/
theorem follow_cons
    (policy : Policy)
    (first : Step)
    (rest : List Step)
    (session : Session) :
    session.follow policy (first :: rest) =
      ((session.step policy first).1 :: ((session.step policy first).2.follow policy rest).1,
        ((session.step policy first).2.follow policy rest).2) :=
  rfl

/-- The history of steps goes on behind that of the steps before them. -/
theorem follow_append
    (policy : Policy)
    (first second : List Step)
    (session : Session) :
    session.follow policy (first ++ second) =
      ((session.follow policy first).1 ++ ((session.follow policy first).2.follow policy second).1,
        ((session.follow policy first).2.follow policy second).2) := by
  induction first generalizing session with
  | nil =>
      rfl
  | cons step first inductionHypothesis =>
      rw [List.cons_append, follow_cons, inductionHypothesis, follow_cons, List.cons_append]

/-- A history halts when its first entry does and the others do. -/
theorem halts_cons
    {entry : Entry}
    {entries : List Entry} :
    Halts (entry :: entries) ↔
      (∀ record, entry.record? = some record → record.outcome? ≠ some .exhausted) ∧
        Halts entries := by
  cases entry with
  | ran record => simp [Halts, recordsOf, Entry.record?]
  | cleared => simp [Halts, recordsOf, Entry.record?]

/-- Steps that halt are taken alike with more rounds. -/
theorem follow_of_enough_rounds
    {more : Nat}
    {steps : List Step}
    (enough : policy.rounds ≤ more)
    (halts : Halts (session.follow policy steps).1) :
    session.follow { policy with rounds := more } steps = session.follow policy steps := by
  induction steps generalizing session with
  | nil =>
      rfl
  | cons first rest inductionHypothesis =>
      rw [follow_cons, halts_cons] at halts
      have sameStep :
          session.step { policy with rounds := more } first = session.step policy first := by
        cases first with
        | reset => rfl
        | unit source =>
            have sameRun := run_of_enough_rounds enough (halts.1 _ rfl)
            simp only [step, sameRun]
      rw [follow_cons, follow_cons, sameStep, inductionHypothesis halts.2]

/-- The history of steps that halt does not depend on the number of rounds. -/
theorem follow_eq_of_halts
    {more : Nat}
    {steps : List Step}
    (halts : Halts (session.follow policy steps).1)
    (alsoHalts : Halts (session.follow { policy with rounds := more } steps).1) :
    session.follow { policy with rounds := more } steps = session.follow policy steps := by
  rcases Nat.le_total policy.rounds more with enough | enough
  · exact follow_of_enough_rounds enough halts
  · exact (follow_of_enough_rounds enough alsoHalts).symm

end Session

end BlockScript
