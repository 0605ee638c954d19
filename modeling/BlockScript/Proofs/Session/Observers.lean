import BlockScript.CommandLine.Painting
import BlockScript.CommandLine.Running
import BlockScript.Proofs.Execution.Watching
import BlockScript.Proofs.Session.Steps

namespace BlockScript

/-!
# Observers do not interfere

Two users watch the same steps of a session with settings of their own: whether
values are echoed, which listings are written and whether diagnostics are
painted.  Both see views of one watched session, in which echo plays no part.  So
the session halts for one exactly when it does for the other, it is the same for
both after every step, and so is what it has reported.  Only what is written
differs, and of the output only by the echoed lines.
-/

/-- The events of an execution, the first one first, and how it ended. -/
structure WatchedExecution where
  events : List Event
  outcome : Outcome
  deriving Repr, DecidableEq

/-- The execution that is seen, with echo or without it. -/
def WatchedExecution.shown
    (echo : Bool)
    (watched : WatchedExecution) :
    Execution where
  lines :=
    watched.events.filterMap (Event.line? echo)
  outcome :=
    watched.outcome

/-- A unit, and what was watched of it if it was executed. -/
structure WatchedUnit where
  source : List Char
  execution : Option WatchedExecution
  deriving Repr, DecidableEq

namespace WatchedUnit

/-- The record that is seen, with echo or without it. -/
def shown
    (echo : Bool)
    (watched : WatchedUnit) :
    UnitRecord :=
  .ofExecution watched.source (watched.execution.map (WatchedExecution.shown echo))

/-- The events of a unit; there are none unless it was executed. -/
def events
    (watched : WatchedUnit) :
    List Event :=
  (watched.execution.map WatchedExecution.events).getD []

end WatchedUnit

/-- The lines that a unit wrote; there are none unless it was executed. -/
def UnitRecord.lines
    (record : UnitRecord) :
    List Line :=
  (record.execution.map Execution.lines).getD []

namespace WatchedUnit

/-- A unit ends alike with echo and without it. -/
theorem outcome?_shown
    (echo : Bool)
    (watched : WatchedUnit) :
    (watched.shown echo).outcome? = watched.execution.map WatchedExecution.outcome := by
  simp [shown, UnitRecord.outcome?, UnitRecord.ofExecution, Function.comp_def,
    WatchedExecution.shown]

/-- A unit reports the same errors with echo and without it. -/
theorem diagnostics_shown
    (echo other : Bool)
    (watched : WatchedUnit) :
    (watched.shown echo).diagnostics = (watched.shown other).diagnostics := by
  cases watched with
  | mk source execution => cases execution <;> rfl

/-- A unit writes its choice of its events. -/
theorem lines_shown
    (echo : Bool)
    (watched : WatchedUnit) :
    (watched.shown echo).lines = watched.events.filterMap (Event.line? echo) := by
  cases watched with
  | mk source execution => cases execution <;> rfl

/-- What a unit writes to the error stream does not depend on echo. -/
theorem unitErrors_shown
    (paint : String → String)
    (settings : Settings)
    (terminal : Bool)
    (echo other : Bool)
    (watched : WatchedUnit) :
    CommandLine.unitErrors paint settings terminal (watched.shown echo) =
      CommandLine.unitErrors paint settings terminal (watched.shown other) := by
  cases watched with
  | mk source execution => cases execution <;> rfl

end WatchedUnit

namespace Session

/-- Run one unit and watch it. -/
def watch
    (rounds : Nat)
    (source : List Char)
    (session : Session) :
    WatchedUnit × Session :=
  let log := session.log.reportAll (Source.diagnostics source)
  if log.hadError then
    ({ source, execution := none }, { session with log })
  else
    let (outcome, world) :=
      Stmt.watchProgram rounds (Source.statements source)
        { chain := .globals session.globals, events := [] }
    let execution : WatchedExecution := { events := world.events.reverse, outcome }
    let error? := (execution.shown false).error?
    ({ source, execution := some execution },
      { globals := world.chain.globalScope
        log := log.reportAll (error?.toList.map RuntimeError.diagnostic) })

/-- Take steps one after another and watch the units. -/
def watchSteps
    (rounds : Nat) :
    List Step → Session → List WatchedUnit × Session
  | [], session => ([], session)
  | .unit source :: rest, session =>
      let (unit, after) := session.watch rounds source
      let (units, last) := watchSteps rounds rest after
      (unit :: units, last)
  | .reset :: rest, session => watchSteps rounds rest session.reset

/-- Statements run as they are watched. -/
theorem executes_watched
    (policy : Policy)
    (globals : Scope)
    (statements : List Stmt)
    {outcome : Outcome}
    {world : WatchedWorld 0}
    (watched :
      Stmt.watchProgram policy.rounds statements { chain := .globals globals, events := [] } =
        (outcome, world)) :
    Executes policy globals statements
      (WatchedExecution.shown policy.echo { events := world.events.reverse, outcome })
      world.chain.globalScope := by
  have shows :=
    Stmt.shows_watchProgram policy statements { chain := .globals globals, events := [] }
  rw [watched] at shows
  unfold Executes
  obtain ⟨chain, events⟩ := world
  cases chain with
  | globals after =>
      simpa [WatchedWorld.shown, shownEnding, WatchedExecution.shown, Chain.globalScope] using shows

/-- A unit is run as it is watched, and its record shows what was watched. -/
theorem run_eq_shown
    (policy : Policy)
    (source : List Char)
    (session : Session) :
    session.run policy source =
      ((session.watch policy.rounds source).1.shown policy.echo,
        (session.watch policy.rounds source).2) := by
  cases gate : (session.log.reportAll (Source.diagnostics source)).hadError with
  | true =>
      rw [run_of_hadError policy gate]
      simp [watch, gate, WatchedUnit.shown]
  | false =>
      cases watched :
          Stmt.watchProgram policy.rounds (Source.statements source)
            { chain := .globals session.globals, events := [] } with
      | mk outcome world =>
          rw [run_of_executes gate (executes_watched policy _ _ watched)]
          simp [watch, gate, watched, WatchedUnit.shown]
          rfl

/-- Steps are taken as they are watched, and the records show what was watched. -/
theorem follow_eq_shown
    (policy : Policy)
    (steps : List Step)
    (session : Session) :
    recordsOf (session.follow policy steps).1 =
        (session.watchSteps policy.rounds steps).1.map (WatchedUnit.shown policy.echo) ∧
      (session.follow policy steps).2 = (session.watchSteps policy.rounds steps).2 := by
  induction steps generalizing session with
  | nil =>
      exact ⟨rfl, rfl⟩
  | cons first rest inductionHypothesis =>
      rw [follow_cons]
      cases first with
      | reset => exact inductionHypothesis session.reset
      | unit source =>
          have others := inductionHypothesis (session.watch policy.rounds source).2
          simp only [step, run_eq_shown, watchSteps, recordsOf, Entry.record?,
            List.filterMap_cons, List.map_cons] at others ⊢
          exact ⟨congrArg _ others.1, others.2⟩

end Session

/-! ## Views of one session -/

open Session

/-- A user: the settings, and whether diagnostics go to a terminal. -/
structure Observer where
  settings : Settings
  terminal : Bool
  deriving Repr, DecidableEq

/-- What a user has seen of a session. -/
structure Sight where
  /-- The globals and the log. -/
  session : Session
  /-- The diagnostics reported, in order. -/
  reported : List Diagnostic
  /-- The lines written as output, in order. -/
  lines : List Line
  /-- What was written to the error stream, listings included. -/
  errors : String

namespace Observer

/-- How units are executed for a user. -/
def policy
    (observer : Observer)
    (rounds : Nat) :
    Policy where
  echo :=
    observer.settings.echo
  rounds :=
    rounds

/-- The history of the steps that a user takes. -/
def history
    (observer : Observer)
    (rounds : Nat)
    (steps : List Step)
    (session : Session) :
    List Entry :=
  (session.follow (observer.policy rounds) steps).1

/-- What a user sees of the steps of a session. -/
def sees
    (observer : Observer)
    (paint : String → String)
    (rounds : Nat)
    (steps : List Step)
    (session : Session) :
    Sight where
  session :=
    (session.follow (observer.policy rounds) steps).2
  reported :=
    (recordsOf (observer.history rounds steps session)).flatMap UnitRecord.diagnostics
  lines :=
    (recordsOf (observer.history rounds steps session)).flatMap UnitRecord.lines
  errors :=
    String.join ((recordsOf (observer.history rounds steps session)).map
      (CommandLine.unitErrors paint observer.settings observer.terminal))

/-- The steps of a session come to an end for a user. -/
def Terminates
    (observer : Observer)
    (steps : List Step)
    (session : Session) :
    Prop :=
  ∃ rounds, Halts (observer.history rounds steps session)

variable (observer : Observer) (rounds : Nat) (steps : List Step) (session : Session)

/-- The records that a user sees show the watched units. -/
theorem recordsOf_history :
    recordsOf (observer.history rounds steps session) =
      (session.watchSteps rounds steps).1.map (WatchedUnit.shown observer.settings.echo) :=
  (follow_eq_shown (observer.policy rounds) steps session).1

/-- Whether steps halt does not depend on who watches them. -/
theorem halts_history_iff :
    Halts (observer.history rounds steps session) ↔
      ∀ unit ∈ (session.watchSteps rounds steps).1,
        unit.execution.map WatchedExecution.outcome ≠ some .exhausted := by
  simp [Halts, recordsOf_history, WatchedUnit.outcome?_shown]

/-- What a user sees is a view of the watched steps. -/
theorem sees_eq
    (paint : String → String) :
    observer.sees paint rounds steps session =
      { session := (session.watchSteps rounds steps).2
        reported := (session.watchSteps rounds steps).1.flatMap fun unit =>
          (unit.shown false).diagnostics
        lines := ((session.watchSteps rounds steps).1.flatMap WatchedUnit.events).filterMap
          (Event.line? observer.settings.echo)
        errors := String.join ((session.watchSteps rounds steps).1.map fun unit =>
          CommandLine.unitErrors paint observer.settings observer.terminal
            (unit.shown false)) } := by
  have sameSession :
      (session.follow (observer.policy rounds) steps).2 = (session.watchSteps rounds steps).2 :=
    (follow_eq_shown (observer.policy rounds) steps session).2
  have sameReports := fun unit : WatchedUnit =>
    unit.diagnostics_shown observer.settings.echo false
  have sameErrors := fun unit : WatchedUnit =>
    unit.unitErrors_shown paint observer.settings observer.terminal observer.settings.echo false
  simp only [sees, sameSession, recordsOf_history, List.flatMap_map, List.map_map,
    Function.comp_def, WatchedUnit.lines_shown, sameReports, sameErrors, List.filterMap_flatMap]

end Observer

/-- Whether a line is the echo of a value. -/
def Line.isEchoed : Line → Bool
  | .printed _ => false
  | .echoed _ => true

/-- Without echo the lines are those that are not echoed with it. -/
theorem filterMap_line?_false
    (events : List Event) :
    events.filterMap (Event.line? false) =
      (events.filterMap (Event.line? true)).filter fun line => !line.isEchoed := by
  induction events with
  | nil =>
      rfl
  | cons event events inductionHypothesis =>
      cases event with
      | printed value => simp [Event.line?, Line.isEchoed, inductionHypothesis]
      | valued expr value =>
          cases isAssignment : expr.isAssignment <;>
            simp [Event.line?, Line.isEchoed, isAssignment, inductionHypothesis]

/-- The lines that echo adds are the values of the expression statements that assign nothing. -/
theorem filter_isEchoed_filterMap_line?
    (events : List Event) :
    (events.filterMap (Event.line? true)).filter Line.isEchoed =
      (events.filterMap Event.shownValue?).map fun value => .echoed value.text := by
  induction events with
  | nil =>
      rfl
  | cons event events inductionHypothesis =>
      cases event with
      | printed value =>
          simp [List.filterMap_cons, Event.line?, Event.shownValue?, Line.isEchoed,
            inductionHypothesis]
      | valued expr value =>
          cases isAssignment : expr.isAssignment <;>
            simp [List.filter_cons, Event.line?, Event.shownValue?, Line.isEchoed, isAssignment,
              inductionHypothesis]

/-- Two sights of the same events differ only by what is echoed, listed and painted. -/
structure DiffersByEcho
    (events : List Event)
    (first second : Observer)
    (firstSight secondSight : Sight) :
    Prop where
  /-- The globals and the flags of the log are the same. -/
  session : firstSight.session = secondSight.session
  /-- The same errors were reported. -/
  reported : firstSight.reported = secondSight.reported
  /-- Each has seen its choice of the events. -/
  firstLines : firstSight.lines = events.filterMap (Event.line? first.settings.echo)
  secondLines : secondSight.lines = events.filterMap (Event.line? second.settings.echo)
  /-- Of the lines with echo, those without it are the printed ones. -/
  printed :
    first.settings.echo = false → second.settings.echo = true →
      firstSight.lines.Sublist secondSight.lines ∧
        firstSight.lines = secondSight.lines.filter fun line => !line.isEchoed
  /-- The others are the values of the expression statements that assign nothing. -/
  echoed :
    second.settings.echo = true →
      secondSight.lines.filter Line.isEchoed =
        (events.filterMap Event.shownValue?).map fun value => .echoed value.text
  /-- The error stream is the same where the same is listed and painted. -/
  errors :
    first.settings.listings = second.settings.listings →
    first.settings.color.isColored first.terminal =
        second.settings.color.isColored second.terminal →
      firstSight.errors = secondSight.errors

/-- Two users see views of the same events. -/
theorem differsByEcho_sees
    (paint : String → String)
    (first second : Observer)
    (rounds : Nat)
    (steps : List Step)
    (session : Session) :
    DiffersByEcho ((session.watchSteps rounds steps).1.flatMap WatchedUnit.events) first second
      (first.sees paint rounds steps session) (second.sees paint rounds steps session) := by
  rw [Observer.sees_eq, Observer.sees_eq]
  refine ⟨rfl, rfl, rfl, rfl, ?_, ?_, ?_⟩
  · intro silent echoing
    rw [silent, echoing]
    have isFilter := filterMap_line?_false
      ((session.watchSteps rounds steps).1.flatMap WatchedUnit.events)
    exact ⟨isFilter ▸ List.filter_sublist, isFilter⟩
  · intro echoing
    rw [echoing]
    exact filter_isEchoed_filterMap_line? _
  · intro sameListings sameColors
    simp only [CommandLine.unitErrors, CommandLine.painter?, sameListings, sameColors]

/--
Steps of a session end for one user exactly when they end for another, and then
both have seen the same but for what is echoed, listed and painted.
-/
theorem observers_do_not_interfere
    (paint : String → String)
    (first second : Observer)
    (steps : List Step)
    (session : Session) :
    (first.Terminates steps session ↔ second.Terminates steps session) ∧
      ∀ firstRounds secondRounds,
        Halts (first.history firstRounds steps session) →
        Halts (second.history secondRounds steps session) →
        DiffersByEcho ((session.watchSteps firstRounds steps).1.flatMap WatchedUnit.events)
          first second (first.sees paint firstRounds steps session)
          (second.sees paint secondRounds steps session) := by
  constructor
  · simp only [Observer.Terminates, Observer.halts_history_iff]
  · intro firstRounds secondRounds firstHalts secondHalts
    -- Both are views of one watched session only for the same number of rounds, so the
    -- second history is moved to the rounds of the first.
    have alsoHalts : Halts (second.history firstRounds steps session) := by
      rw [Observer.halts_history_iff] at firstHalts ⊢
      exact firstHalts
    have sameHistory :
        session.follow (second.policy secondRounds) steps =
          session.follow (second.policy firstRounds) steps :=
      follow_eq_of_halts alsoHalts secondHalts
    have sameSight :
        second.sees paint secondRounds steps session =
          second.sees paint firstRounds steps session := by
      simp only [Observer.sees, Observer.history, sameHistory]
    rw [sameSight]
    exact differsByEcho_sees paint first second firstRounds steps session

/-- Without echo, listings and colours. -/
def quietObserver : Observer where
  settings :=
    {}
  terminal :=
    false

/-- With echo, both listings and colours. -/
def fullObserver : Observer where
  settings :=
    { color := .always, echo := true, listings := { tokens := true, tree := true } }
  terminal :=
    true

/-- A loop around an expression, a unit with an error, and behind a reset one that fails. -/
def eventfulSteps : List Step :=
  [.unit "var a = \"x\"; for (; a == \"x\"; a = \"y\") a; print a;".toList,
    .unit "print".toList, .reset, .unit "a; -a; a;".toList]

/-- Of three lines with echo, only the printed one is there without it. -/
theorem observers_do_not_interfere_eventfulSteps :
    quietObserver.Terminates eventfulSteps {} ∧ fullObserver.Terminates eventfulSteps {} ∧
      (fullObserver.sees Diagnostic.inRed 2 eventfulSteps {}).lines =
          [.echoed "x", .printed "y", .echoed "y"] ∧
        (quietObserver.sees Diagnostic.inRed 3 eventfulSteps {}).lines = [.printed "y"] ∧
          (quietObserver.sees Diagnostic.inRed 3 eventfulSteps {}).session.log =
            (fullObserver.sees Diagnostic.inRed 2 eventfulSteps {}).session.log := by
  have quietHalts : Halts (quietObserver.history 3 eventfulSteps {}) := by
    unfold Halts
    decide +kernel
  have fullHalts : Halts (fullObserver.history 2 eventfulSteps {}) := by
    unfold Halts
    decide +kernel
  have fullLines :
      (fullObserver.sees Diagnostic.inRed 2 eventfulSteps {}).lines =
        [.echoed "x", .printed "y", .echoed "y"] := by
    decide +kernel
  obtain ⟨sameEnd, sameSight⟩ :=
    observers_do_not_interfere Diagnostic.inRed quietObserver fullObserver eventfulSteps {}
  have differs := sameSight 3 2 quietHalts fullHalts
  have quietLines := (differs.printed rfl rfl).2
  rw [fullLines] at quietLines
  exact ⟨⟨3, quietHalts⟩, sameEnd.mp ⟨3, quietHalts⟩, fullLines, quietLines,
    congrArg Session.log differs.session⟩

end BlockScript
