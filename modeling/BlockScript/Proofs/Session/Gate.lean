import BlockScript.Proofs.Session.Steps

namespace BlockScript

/-!
# The gate of a session

A unit is blocked when reading it, or a unit run since the last reset, has found
an error.  The log knows this from its flags alone, because it is told exactly
what the records report.  So over whole sessions a blocked unit changes nothing
but the log, any other unit is executed, and the flags tell what the units since
the last reset have come to.
-/

namespace Log

/-- Diagnostics are reported in parts. -/
theorem reportAll_append
    (log : Log)
    (first second : List Diagnostic) :
    log.reportAll (first ++ second) = (log.reportAll first).reportAll second :=
  List.foldl_append

/-- The log has an error of a source when it had one or is told one. -/
theorem hadError_reportAll
    (log : Log)
    (diagnostics : List Diagnostic) :
    (log.reportAll diagnostics).hadError =
      (log.hadError || diagnostics.any fun diagnostic => !diagnostic.isRuntime) := by
  induction diagnostics generalizing log with
  | nil =>
      simp [reportAll]
  | cons first rest inductionHypothesis =>
      have others := inductionHypothesis (log.report first)
      simp only [reportAll, List.foldl_cons, List.any_cons] at others ⊢
      rw [others]
      cases isRuntime : first.isRuntime <;> simp [report, isRuntime]

/-- The log has a runtime error when it had one or is told one. -/
theorem hadRuntimeError_reportAll
    (log : Log)
    (diagnostics : List Diagnostic) :
    (log.reportAll diagnostics).hadRuntimeError =
      (log.hadRuntimeError || diagnostics.any Diagnostic.isRuntime) := by
  induction diagnostics generalizing log with
  | nil =>
      simp [reportAll]
  | cons first rest inductionHypothesis =>
      have others := inductionHypothesis (log.report first)
      simp only [reportAll, List.foldl_cons, List.any_cons] at others ⊢
      rw [others]
      cases isRuntime : first.isRuntime <;> simp [report, isRuntime]

end Log

/-- A lexical error is not a runtime error. -/
@[simp]
theorem LexicalError.isRuntime_diagnostic
    (error : LexicalError) :
    error.diagnostic.isRuntime = false :=
  rfl

/-- A grammar error is not a runtime error. -/
@[simp]
theorem GrammarError.isRuntime_diagnostic
    (error : GrammarError) :
    error.diagnostic.isRuntime = false :=
  rfl

/-- A runtime error is one when it is shown. -/
@[simp]
theorem RuntimeError.isRuntime_diagnostic
    (error : RuntimeError) :
    error.diagnostic.isRuntime = true :=
  rfl

namespace UnitRecord

/-- Reading a unit has found an error. -/
def HasSourceError
    (record : UnitRecord) :
    Prop :=
  record.lexing.errors ≠ [] ∨ record.program.errors ≠ []

/-- A unit was executed and ended by a runtime error. -/
def Failed
    (record : UnitRecord) :
    Prop :=
  ∃ error, record.outcome? = some (.failed error)

/-- An execution ends by an error exactly when it has one. -/
theorem failed_iff
    (record : UnitRecord) :
    record.Failed ↔ (record.execution.bind Execution.error?).isSome = true := by
  unfold Failed outcome?
  cases record.execution with
  | none => simp
  | some execution =>
      cases ends : execution.outcome <;> simp [Execution.error?, ends]

/-- The diagnostics of a unit hold an error of its source exactly when reading it found one. -/
theorem any_not_isRuntime_diagnostics
    (record : UnitRecord) :
    (record.diagnostics.any fun diagnostic => !diagnostic.isRuntime) = true ↔
      record.HasSourceError := by
  cases error : record.execution.bind Execution.error? <;>
    simp [diagnostics, lexicalDiagnostics, grammarDiagnostics, runtimeDiagnostics, error,
      HasSourceError, List.eq_nil_iff_forall_not_mem]

/-- The diagnostics of a unit hold a runtime error exactly when it failed. -/
theorem any_isRuntime_diagnostics
    (record : UnitRecord) :
    record.diagnostics.any Diagnostic.isRuntime = true ↔ record.Failed := by
  rw [failed_iff]
  cases error : record.execution.bind Execution.error? <;>
    simp [diagnostics, lexicalDiagnostics, grammarDiagnostics, runtimeDiagnostics, error]

end UnitRecord

namespace Session

variable {policy : Policy} {session : Session} {source : List Char}

/-- The units to be remembered behind an entry of the history. -/
def remember
    (earlier : List UnitRecord) :
    Entry → List UnitRecord
  | .ran record => earlier ++ [record]
  | .cleared => []

/-- The units that were run since the last reset, in order. -/
def sinceReset
    (history : List Entry) :
    List UnitRecord :=
  history.foldl remember []

/-- The log has been told what units have reported, and nothing else since it was cleared. -/
def Remembers
    (session : Session)
    (earlier : List UnitRecord) :
    Prop :=
  session.log = Log.clear.reportAll (earlier.flatMap UnitRecord.diagnostics)

/-- A unit is blocked when it or a unit since the last reset has an error of its source. -/
def Blocked
    (earlier : List UnitRecord)
    (record : UnitRecord) :
    Prop :=
  ∃ unit ∈ earlier ++ [record], unit.HasSourceError

/-- A record reports what reading its source does, then the error of its execution. -/
theorem diagnostics_ofExecution
    (source : List Char)
    (execution : Option Execution) :
    (UnitRecord.ofExecution source execution).diagnostics =
      Source.diagnostics source ++
        (execution.bind Execution.error?).toList.map RuntimeError.diagnostic := by
  simp only [UnitRecord.diagnostics, UnitRecord.lexicalDiagnostics,
    UnitRecord.grammarDiagnostics, UnitRecord.runtimeDiagnostics, UnitRecord.ofExecution,
    Source.diagnostics]
  cases execution.bind Execution.error? <;> rfl

/-- Reading a unit has found an error exactly when its source is not clean. -/
theorem hasSourceError_ofExecution_iff
    (source : List Char)
    (execution : Option Execution) :
    (UnitRecord.ofExecution source execution).HasSourceError ↔ ¬Source.IsClean source := by
  constructor
  · rintro (lexical | grammatical) clean
    · exact lexical clean.lexical
    · exact grammatical clean.grammatical
  · intro unclean
    by_cases lexical : (Lexing.ofSource source).errors = []
    · exact .inr fun grammatical => unclean ⟨lexical, grammatical⟩
    · exact .inl lexical

/-- Once a source is read, the log has an error if it had one or the source is not clean. -/
theorem hadError_reportAll_diagnostics_iff
    (log : Log)
    (source : List Char) :
    (log.reportAll (Source.diagnostics source)).hadError = true ↔
      log.hadError = true ∨ ¬Source.IsClean source := by
  have reported : (UnitRecord.ofExecution source none).diagnostics = Source.diagnostics source := by
    simp [diagnostics_ofExecution]
  rw [Log.hadError_reportAll, Bool.or_eq_true, ← reported,
    UnitRecord.any_not_isRuntime_diagnostics, hasSourceError_ofExecution_iff]

/-- A source that is not clean is read and not executed. -/
theorem run_of_not_isClean
    (policy : Policy)
    (unclean : ¬Source.IsClean source) :
    session.run policy source =
      (.ofExecution source none,
        { session with log := session.log.reportAll (Source.diagnostics source) }) :=
  run_of_hadError policy ((hadError_reportAll_diagnostics_iff _ _).mpr (.inr unclean))

/-- A unit tells the log what its record reports. -/
theorem log_run
    (policy : Policy)
    (source : List Char)
    (session : Session) :
    (session.run policy source).2.log =
      session.log.reportAll (session.run policy source).1.diagnostics := by
  cases gate : (session.log.reportAll (Source.diagnostics source)).hadError with
  | true =>
      rw [run_of_hadError policy gate, diagnostics_ofExecution]
      simp
  | false =>
      obtain ⟨execution, after, runs⟩ :=
        exists_executes policy session.globals (Source.statements source)
      rw [run_of_executes gate runs, diagnostics_ofExecution, Log.reportAll_append]
      rfl

/-- A step keeps what the log remembers in line with the history. -/
theorem Remembers.step
    {earlier : List UnitRecord}
    (remembers : Remembers session earlier)
    (policy : Policy)
    (next : Step) :
    Remembers (session.step policy next).2 (remember earlier (session.step policy next).1) := by
  cases next with
  | reset => rfl
  | unit source =>
      have told := log_run policy source session
      unfold Remembers at remembers ⊢
      simp only [Session.step, remember, List.flatMap_append, Log.reportAll_append]
      rw [told, ← remembers]
      simp

/-- Steps keep what the log remembers in line with the history. -/
theorem Remembers.follow
    {earlier : List UnitRecord}
    (remembers : Remembers session earlier)
    (policy : Policy)
    (steps : List Step) :
    Remembers (session.follow policy steps).2
      ((session.follow policy steps).1.foldl remember earlier) := by
  induction steps generalizing session earlier with
  | nil =>
      exact remembers
  | cons first rest inductionHypothesis =>
      rw [follow_cons]
      exact inductionHypothesis (remembers.step policy first)

/-- The log has an error of a source exactly when a unit that it remembers has one. -/
theorem Remembers.hadError_iff
    {earlier : List UnitRecord}
    (remembers : Remembers session earlier) :
    session.log.hadError = true ↔ ∃ unit ∈ earlier, unit.HasSourceError := by
  rw [remembers, Log.hadError_reportAll, List.any_flatMap, Log.clear, Bool.false_or,
    List.any_eq_true]
  exact exists_congr fun unit => and_congr_right fun _ => unit.any_not_isRuntime_diagnostics

/-- The log has a runtime error exactly when a unit that it remembers failed. -/
theorem Remembers.hadRuntimeError_iff
    {earlier : List UnitRecord}
    (remembers : Remembers session earlier) :
    session.log.hadRuntimeError = true ↔ ∃ unit ∈ earlier, unit.Failed := by
  rw [remembers, Log.hadRuntimeError_reportAll, List.any_flatMap, Log.clear, Bool.false_or,
    List.any_eq_true]
  exact exists_congr fun unit => and_congr_right fun _ => unit.any_isRuntime_diagnostics

/-- The gate is shut exactly for the units that are blocked. -/
theorem Remembers.gate_iff
    {earlier : List UnitRecord}
    (remembers : Remembers session earlier)
    (source : List Char)
    (execution : Option Execution) :
    (session.log.reportAll (Source.diagnostics source)).hadError = true ↔
      Blocked earlier (.ofExecution source execution) := by
  -- What is executed later does not matter: the log as it is when the unit has been read
  -- remembers the unit as one that was not executed.
  have withUnit :
      Remembers { session with log := session.log.reportAll (Source.diagnostics source) }
        (earlier ++ [.ofExecution source none]) := by
    unfold Remembers at remembers ⊢
    rw [List.flatMap_append, Log.reportAll_append, ← remembers]
    simp [diagnostics_ofExecution]
  refine withUnit.hadError_iff.trans ?_
  simp only [Blocked, List.mem_append, List.mem_singleton, or_and_right, exists_or,
    exists_eq_left]
  rfl

/-- What a unit does in a session that remembers the units since the last reset. -/
structure PassesGate
    (policy : Policy)
    (earlier : List UnitRecord)
    (session : Session)
    (source : List Char)
    (record : UnitRecord)
    (after : Session) :
    Prop where
  /-- A blocked unit writes nothing, lists no tree, leaves the globals and has no runtime error. -/
  blocked :
    Blocked earlier record →
      record.execution = none ∧ record.output = "" ∧ record.treeListing = "" ∧
        after.globals = session.globals ∧ record.runtimeDiagnostics = []
  /-- Any other unit executes its statements. -/
  executed :
    ¬Blocked earlier record →
      ∃ execution,
        record.execution = some execution ∧
          Executes policy session.globals (Source.statements source) execution after.globals
  /-- The errors of a unit are those of its text, in order, and that of its execution. -/
  reported :
    record.diagnostics =
      (Lexing.ofSource source).errors.map LexicalError.diagnostic ++
        (Program.ofTokens (Lexing.ofSource source).tokens).errors.map GrammarError.diagnostic ++
          (record.execution.bind Execution.error?).toList.map RuntimeError.diagnostic
  /-- The log is told just these errors. -/
  told : after.log = session.log.reportAll record.diagnostics

/-- Every unit passes the gate or is blocked by it as the units since the last reset say. -/
theorem Remembers.passesGate
    {earlier : List UnitRecord}
    (remembers : Remembers session earlier)
    (policy : Policy)
    (source : List Char) :
    PassesGate policy earlier session source (session.run policy source).1
      (session.run policy source).2 := by
  have told := log_run policy source session
  cases gate : (session.log.reportAll (Source.diagnostics source)).hadError with
  | true =>
      rw [run_of_hadError policy gate] at told ⊢
      have isBlocked := (remembers.gate_iff source none).mp gate
      exact
        { blocked := fun _ => ⟨rfl, rfl, rfl, rfl, rfl⟩
          executed := fun isOpen => absurd isBlocked isOpen
          reported := diagnostics_ofExecution source none
          told }
  | false =>
      obtain ⟨execution, after, runs⟩ :=
        exists_executes policy session.globals (Source.statements source)
      rw [run_of_executes gate runs] at told ⊢
      have isOpen : ¬Blocked earlier (.ofExecution source (some execution)) := by
        rw [← remembers.gate_iff source (some execution), gate]
        exact Bool.false_ne_true
      exact
        { blocked := fun isBlocked => absurd isBlocked isOpen
          executed := fun _ => ⟨execution, rfl, runs⟩
          reported := diagnostics_ofExecution source (some execution)
          told }

/--
The flags of the log tell after every step what the units since the last reset
have come to, and the next unit is executed unless it or one of them has an error
of its source.
-/
theorem gate_holds
    (policy : Policy)
    (globals : Scope)
    (steps : List Step)
    {history : List Entry}
    {session : Session}
    (reached : follow policy steps { globals } = (history, session)) :
    (session.log.hadError = true ↔ ∃ unit ∈ sinceReset history, unit.HasSourceError) ∧
      (session.log.hadRuntimeError = true ↔ ∃ unit ∈ sinceReset history, unit.Failed) ∧
        ∀ source, ∃ record after,
          follow policy (steps ++ [.unit source]) { globals } =
              (history ++ [.ran record], after) ∧
            PassesGate policy (sinceReset history) session source record after := by
  have start : Remembers { globals } [] := rfl
  have remembers := start.follow policy steps
  rw [reached] at remembers
  refine ⟨remembers.hadError_iff, remembers.hadRuntimeError_iff, fun source => ?_⟩
  refine ⟨_, _, ?_, remembers.passesGate policy source⟩
  rw [follow_append, reached]
  rfl

/-- The last unit of a history is the one that was run last. -/
theorem getLast?_recordsOf
    (history : List Entry)
    (record : UnitRecord) :
    (recordsOf (history ++ [.ran record])).getLast? = some record := by
  simp [recordsOf, Entry.record?]

/-- A unit that has an error of its source. -/
def unfinishedPrint : Step :=
  .unit "print".toList

/-- A source without errors that writes a line and then negates a text. -/
def failingSource : List Char :=
  "print \"x\"; -\"x\";".toList

/-- Behind a unit with an error a unit is blocked; behind a reset it is executed and fails. -/
theorem gate_holds_unfinishedPrint :
    (∃ unit ∈ sinceReset (follow {} [unfinishedPrint] {}).1, unit.HasSourceError) ∧
      (∃ record after,
        follow {} [unfinishedPrint, .unit failingSource] {} =
            ((follow {} [unfinishedPrint] {}).1 ++ [.ran record], after) ∧
          record.execution = none ∧ record.output = "") ∧
        ∃ record after execution,
          follow {} [unfinishedPrint, .reset, .unit failingSource] {} =
              ((follow {} [unfinishedPrint, .reset] {}).1 ++ [.ran record], after) ∧
            record.execution = some execution ∧
              Executes {} ∅ (Source.statements failingSource) execution after.globals ∧
                record.output = "x\n" ∧
                  record.runtimeDiagnostics.map Diagnostic.text =
                      ["Operand must be a number.\n[line 1]"] ∧
                    after.log.hadRuntimeError = true := by
  have wrong : follow {} [unfinishedPrint] {} = (_, _) := (Prod.eta _).symm
  obtain ⟨flag, _, next⟩ := gate_holds {} ∅ [unfinishedPrint] wrong
  obtain ⟨unit, isEarlier, isWrong⟩ := flag.mp (by decide +kernel)
  obtain ⟨first, afterFirst, ranFirst, gatedFirst⟩ := next failingSource
  obtain ⟨notExecuted, noOutput, _⟩ :=
    gatedFirst.blocked ⟨unit, List.mem_append_left _ isEarlier, isWrong⟩
  refine ⟨⟨unit, isEarlier, isWrong⟩, ⟨first, afterFirst, ranFirst, notExecuted, noOutput⟩, ?_⟩
  have cleared : follow {} [unfinishedPrint, .reset] {} = (_, _) := (Prod.eta _).symm
  obtain ⟨_, _, behindReset⟩ := gate_holds {} ∅ [unfinishedPrint, .reset] cleared
  obtain ⟨record, after, ran, gated⟩ := behindReset failingSource
  have shown (view : UnitRecord → List String) :
      ((recordsOf (follow {} [unfinishedPrint, .reset, .unit failingSource] {}).1).getLast?.map
          view).getD [] =
        view record := by
    rw [show follow {} [unfinishedPrint, .reset, .unit failingSource] {} = _ from ran,
      getLast?_recordsOf]
    rfl
  have output : [record.output] = ["x\n"] :=
    (shown fun record => [record.output]).symm.trans (by decide +kernel)
  have failure :
      record.runtimeDiagnostics.map Diagnostic.text = ["Operand must be a number.\n[line 1]"] :=
    (shown fun record => record.runtimeDiagnostics.map Diagnostic.text).symm.trans
      (by decide +kernel)
  obtain ⟨execution, executed, runs⟩ := gated.executed fun isBlocked => by
    have noOutput := (gated.blocked isBlocked).2.1
    simp [noOutput] at output
  have told : after.log.hadRuntimeError = true := by
    rw [← show (follow {} [unfinishedPrint, .reset, .unit failingSource] {}).2 = after from
      congrArg Prod.snd ran]
    decide +kernel
  have unclean : ¬Source.IsClean "print".toList :=
    fun clean => absurd clean.grammatical (by decide +kernel)
  have unchanged : (follow {} [unfinishedPrint, .reset] {}).2.globals = ∅ := by
    simp only [follow, step, unfinishedPrint, run_of_not_isClean {} unclean, reset]
  rw [unchanged] at runs
  exact ⟨record, after, execution, ran, executed, runs, List.singleton_inj.mp output, failure, told⟩

end Session

end BlockScript
