import BlockScript.Session
import BlockScript.Proofs.Execution.Shifting

namespace BlockScript

open Source

/-!
# Running units one after another or as one

Clean units that run one after another do what they do as one source with line
feeds between them.  As long as they end normally, the joined source goes on
where the next unit would; at the first runtime error it ends with the same
error, further down by the lines before the unit.
-/

/-- Statements run from global scope to global scope, with an outcome and the lines written. -/
def Executes
    (policy : Policy)
    (globals : Scope)
    (statements : List Stmt)
    (execution : Execution)
    (after : Scope) :
    Prop :=
  Stmt.execProgram policy statements { chain := .globals globals, lines := [] } =
    (execution.outcome, { chain := .globals after, lines := execution.lines.reverse })

/-- Every run of statements has an outcome. -/
theorem exists_executes
    (policy : Policy)
    (globals : Scope)
    (statements : List Stmt) :
    ∃ execution after, Executes policy globals statements execution after := by
  cases ends : Stmt.execProgram policy statements { chain := .globals globals, lines := [] } with
  | mk outcome world =>
      obtain ⟨chain, lines⟩ := world
      cases chain with
      | globals after =>
          refine ⟨{ lines := lines.reverse, outcome }, after, ?_⟩
          simp [Executes, ends]

namespace Executes

variable {policy : Policy} {globals after : Scope} {statements : List Stmt} {execution : Execution}

/-- A session executes statements as they run. -/
theorem execute_eq
    {session : Session}
    (runs : Executes policy session.globals statements execution after) :
    session.execute policy statements =
      (execution,
        { globals := after
          log := session.log.reportAll
            (execution.error?.toList.map RuntimeError.diagnostic) }) := by
  unfold Executes at runs
  unfold Session.execute
  rw [runs]
  simp [Chain.globalScope]

/-- Statements behind others that end normally run as they would on their own, further down. -/
theorem append_of_normal
    {others : List Stmt}
    {next : Execution}
    {last : Scope}
    (runs : Executes policy globals statements execution after)
    (ends : execution.outcome = .normal)
    (goesOn : Executes policy after others next last)
    (lines : Nat) :
    Executes policy globals (statements ++ Stmt.shiftedAll lines others)
      { lines := execution.lines ++ next.lines, outcome := next.outcome.shifted lines } last := by
  unfold Executes at runs goesOn ⊢
  rw [ends] at runs
  rw [Stmt.execProgram_append_of_normal _ runs]
  have further :
      Stmt.execProgram policy (Stmt.shiftedAll lines others)
          (World.behind execution.lines.reverse { chain := .globals after, lines := [] }) =
        lifted lines execution.lines.reverse
          (Stmt.execProgram policy others { chain := .globals after, lines := [] }) :=
    Stmt.execProgram_shifted policy others _
  rw [goesOn] at further
  simpa [World.behind, lifted] using further

/-- Statements behind others that fail do not run. -/
theorem append_of_failed
    {error : RuntimeError}
    (runs : Executes policy globals statements execution after)
    (ends : execution.outcome = .failed error)
    (others : List Stmt) :
    Executes policy globals (statements ++ others) execution after := by
  unfold Executes at runs ⊢
  rw [ends] at runs ⊢
  exact Stmt.execProgram_append_of_failed others runs

/-- A clean source behind one that ends normally runs as it would on its own, further down. -/
theorem append_lineFeed_of_normal
    {source following : List Char}
    {next : Execution}
    {last : Scope}
    (clean : IsClean source)
    (followingClean : IsClean following)
    (runs : Executes policy globals (Source.statements source) execution after)
    (ends : execution.outcome = .normal)
    (goesOn : Executes policy after (Source.statements following) next last) :
    Executes policy globals (Source.statements (source ++ '\n' :: following))
      { lines := execution.lines ++ next.lines
        outcome := next.outcome.shifted (lineFeeds source + 1) } last := by
  rw [(clean.append_lineFeed followingClean).2]
  exact runs.append_of_normal ends goesOn _

/-- A clean source behind one that fails does not run. -/
theorem append_lineFeed_of_failed
    {source following : List Char}
    {error : RuntimeError}
    (clean : IsClean source)
    (followingClean : IsClean following)
    (runs : Executes policy globals (Source.statements source) execution after)
    (ends : execution.outcome = .failed error) :
    Executes policy globals (Source.statements (source ++ '\n' :: following)) execution after := by
  rw [(clean.append_lineFeed followingClean).2]
  exact runs.append_of_failed ends _

end Executes

/-- The units of a text with line feeds between them. -/
def joinUnits
    (units : List (List Char)) :
    List Char :=
  ['\n'].intercalate units

/-- The text before a unit that follows other units. -/
def textBefore
    (units : List (List Char)) :
    List Char :=
  units.flatMap (· ++ ['\n'])

/-- A single unit is the whole text. -/
theorem joinUnits_singleton
    (unit : List Char) :
    joinUnits [unit] = unit := by
  simp [joinUnits]

/-- A unit is joined to those behind it by a line feed. -/
theorem joinUnits_cons
    (unit : List Char)
    {units : List (List Char)}
    (notLast : units ≠ []) :
    joinUnits (unit :: units) = unit ++ '\n' :: joinUnits units := by
  simp [joinUnits, List.intercalate_cons_of_ne_nil notLast]

/-- What stands before a unit in the joined text is the text before it. -/
theorem joinUnits_append
    (before : List (List Char))
    {units : List (List Char)}
    (notLast : units ≠ []) :
    joinUnits (before ++ units) = textBefore before ++ joinUnits units := by
  induction before with
  | nil =>
      rfl
  | cons unit before inductionHypothesis =>
      have more : before ++ units ≠ [] := by simp [notLast]
      rw [List.cons_append, joinUnits_cons unit more, inductionHypothesis]
      simp [textBefore]

/-- A text that is read without errors to no tokens is clean and has no statements. -/
theorem isClean_of_no_tokens
    {source : List Char}
    (lexical : (Lexing.ofSource source).errors = [])
    (noTokens : tokensBeforeEnd source = []) :
    IsClean source ∧ Source.statements source = [] := by
  have phrase : Grammar.BodyPhrase false (tokensBeforeEnd source) [] [] := by
    rw [noTokens]
    exact .nil
  have reads := ofTokens_eq_of_phrase phrase
  refine ⟨⟨lexical, ?_⟩, ?_⟩
  · rw [reads]
  · rw [Source.statements, reads]

/-- Nothing at all is clean and has no statements. -/
theorem isClean_nil :
    IsClean [] ∧ Source.statements [] = [] := by
  have noSegments : Source.segments [] = [] := by
    simp [Source.segments, Source.segmentsFrom]
  apply isClean_of_no_tokens
  · rw [Lexing.ofSource, noSegments]
    rfl
  · rw [tokensBeforeEnd, noSegments]
    rfl

/-- Clean units are joined to a clean text. -/
theorem isClean_joinUnits
    {units : List (List Char)}
    (clean : ∀ unit ∈ units, IsClean unit) :
    IsClean (joinUnits units) := by
  induction units with
  | nil =>
      exact isClean_nil.1
  | cons unit units inductionHypothesis =>
      rw [List.forall_mem_cons] at clean
      cases units with
      | nil =>
          rw [joinUnits_singleton]
          exact clean.1
      | cons next others =>
          rw [joinUnits_cons unit (by simp)]
          exact (clean.1.append_lineFeed (inductionHypothesis clean.2)).1

/-- How the execution of a unit ended, if it was executed. -/
def UnitRecord.outcome?
    (record : UnitRecord) :
    Option Outcome :=
  record.execution.map Execution.outcome

/-- What is written in two parts. -/
theorem output_append
    (first second : List Line)
    (outcome firstOutcome secondOutcome : Outcome) :
    Execution.output { lines := first ++ second, outcome } =
      Execution.output { lines := first, outcome := firstOutcome } ++
        Execution.output { lines := second, outcome := secondOutcome } := by
  simp [Execution.output, String.join_append]

namespace Session

variable {policy : Policy} {session : Session}

/-- Run units one after another. -/
def runEach
    (policy : Policy) :
    List (List Char) → Session → List UnitRecord × Session
  | [], session => ([], session)
  | unit :: units, session =>
      let first := session.run policy unit
      let others := runEach policy units first.2
      (first.1 :: others.1, others.2)

/-- A clean unit runs as its statements do. -/
theorem run_of_isClean
    {source : List Char}
    {execution : Execution}
    {after : Scope}
    (clear : session.log.hadError = false)
    (clean : IsClean source)
    (runs : Executes policy session.globals (Source.statements source) execution after) :
    session.run policy source =
      ({ lexing := Lexing.ofSource source
         program := Program.ofTokens (Lexing.ofSource source).tokens
         execution := some execution },
        { globals := after
          log := session.log.reportAll
            (execution.error?.toList.map RuntimeError.diagnostic) }) := by
  have executed := runs.execute_eq
  unfold Source.statements at executed
  simp only [run, clean.lexical, clean.grammatical, List.map_nil, List.append_nil,
    Log.reportAll, List.foldl_nil, clear, Bool.false_eq_true, ↓reduceIte, executed]

/-- A clean unit that ends normally leaves its globals and changes nothing else. -/
theorem exists_run_of_normal
    {source : List Char}
    (clear : session.log.hadError = false)
    (clean : IsClean source)
    (normal : (session.run policy source).1.outcome? = some .normal) :
    ∃ execution,
      Executes policy session.globals (Source.statements source) execution
          (session.run policy source).2.globals ∧
        execution.outcome = .normal ∧
          (session.run policy source).1.output = execution.output ∧
            (session.run policy source).2.log = session.log := by
  obtain ⟨execution, after, runs⟩ := exists_executes policy session.globals (statements source)
  have ran := run_of_isClean clear clean runs
  rw [ran] at normal ⊢
  have ends : execution.outcome = .normal := Option.some.inj normal
  have noError : execution.error? = none := by
    simp only [Execution.error?, ends]
  refine ⟨execution, runs, ends, rfl, ?_⟩
  simp only [noError]
  rfl

/-- Units that end normally are joined to a text that does what they do. -/
theorem exists_executes_joinUnits
    {units : List (List Char)}
    (clear : session.log.hadError = false)
    (clean : ∀ unit ∈ units, IsClean unit)
    (normal : ∀ record ∈ (runEach policy units session).1, record.outcome? = some .normal) :
    ∃ execution,
      Executes policy session.globals (Source.statements (joinUnits units)) execution
          (runEach policy units session).2.globals ∧
        execution.outcome = .normal ∧
          execution.output =
            String.join ((runEach policy units session).1.map UnitRecord.output) := by
  induction units generalizing session with
  | nil =>
      refine ⟨{ lines := [], outcome := .normal }, ?_, rfl, rfl⟩
      have nothing : Source.statements (joinUnits []) = [] := isClean_nil.2
      rw [nothing]
      rfl
  | cons unit units inductionHypothesis =>
      rw [runEach, List.forall_mem_cons] at normal
      rw [List.forall_mem_cons] at clean
      obtain ⟨first, runs, ends, firstOutput, firstLog⟩ :=
        exists_run_of_normal clear clean.1 normal.1
      rw [← firstLog] at clear
      obtain ⟨next, goesOn, nextEnds, nextOutput⟩ :=
        inductionHypothesis clear clean.2 normal.2
      cases units with
      | nil =>
          rw [joinUnits_singleton]
          refine ⟨first, runs, ends, ?_⟩
          simp [runEach, firstOutput]
      | cons other others =>
          have joined :=
            runs.append_lineFeed_of_normal clean.1 (isClean_joinUnits clean.2) ends goesOn
          rw [← joinUnits_cons unit (by simp)] at joined
          refine ⟨_, joined, ?_, ?_⟩
          · rw [nextEnds]
            rfl
          · rw [output_append first.lines next.lines _ first.outcome next.outcome, runEach,
              List.map_cons, String.join_cons, firstOutput, ← nextOutput]

/-- Units up to the first that fails are joined to a text that fails as it does, further down. -/
theorem exists_executes_joinUnits_of_failed
    {before following : List (List Char)}
    {unit : List Char}
    {error : RuntimeError}
    (clear : session.log.hadError = false)
    (clean : ∀ other ∈ before ++ unit :: following, IsClean other)
    (normal : ∀ record ∈ (runEach policy before session).1, record.outcome? = some .normal)
    (fails :
      ((runEach policy before session).2.run policy unit).1.outcome? = some (.failed error)) :
    ∃ execution,
      Executes policy session.globals
          (Source.statements (joinUnits (before ++ unit :: following))) execution
          ((runEach policy before session).2.run policy unit).2.globals ∧
        execution.outcome = .failed (error.shifted (lineFeeds (textBefore before))) ∧
          execution.output =
            String.join ((runEach policy before session).1.map UnitRecord.output) ++
              ((runEach policy before session).2.run policy unit).1.output := by
  induction before generalizing session with
  | nil =>
      rw [List.nil_append, List.forall_mem_cons] at clean
      obtain ⟨execution, after, runs⟩ := exists_executes policy session.globals (statements unit)
      have ran := run_of_isClean clear clean.1 runs
      simp only [runEach] at fails ⊢
      rw [ran] at fails ⊢
      have ends : execution.outcome = .failed error := Option.some.inj fails
      have blamed : execution.outcome = .failed (error.shifted (lineFeeds (textBefore []))) := by
        rw [ends]
        exact congrArg Outcome.failed error.shifted_zero.symm
      refine ⟨execution, ?_, blamed, by simp [UnitRecord.output]⟩
      cases following with
      | nil =>
          rw [List.nil_append, joinUnits_singleton]
          exact runs
      | cons other others =>
          rw [List.nil_append, joinUnits_cons unit (by simp)]
          exact runs.append_lineFeed_of_failed clean.1 (isClean_joinUnits clean.2) ends
  | cons first before inductionHypothesis =>
      rw [runEach, List.forall_mem_cons] at normal
      rw [List.cons_append, List.forall_mem_cons] at clean
      obtain ⟨execution, runs, ends, firstOutput, firstLog⟩ :=
        exists_run_of_normal clear clean.1 normal.1
      rw [← firstLog] at clear
      obtain ⟨next, goesOn, nextEnds, nextOutput⟩ :=
        inductionHypothesis clear clean.2 normal.2 fails
      have joined :=
        runs.append_lineFeed_of_normal clean.1 (isClean_joinUnits clean.2) ends goesOn
      rw [← joinUnits_cons first (by simp)] at joined
      refine ⟨_, joined, ?_, ?_⟩
      · rw [nextEnds]
        simp [Outcome.shifted, RuntimeError.shifted, Token.shifted, textBefore, lineFeeds]
        omega
      · rw [output_append execution.lines next.lines _ execution.outcome next.outcome, runEach,
          List.map_cons, String.join_cons, firstOutput, String.append_assoc, ← nextOutput]

/-- What a run of one unit comes to: its outcome, what it wrote, left and reported. -/
structure RunsAs
    (session : Session)
    (ran : UnitRecord × Session)
    (ending : Outcome)
    (written : String)
    (left : Scope)
    (reported : List Diagnostic) :
    Prop where
  outcome : ran.1.outcome? = some ending
  output : ran.1.output = written
  globals : ran.2.globals = left
  diagnostics : ran.1.diagnostics = reported
  log : ran.2.log = session.log.reportAll reported

/-- A clean unit comes to what its statements do, and reports only their error. -/
theorem runsAs_of_executes
    {source : List Char}
    {execution : Execution}
    {after : Scope}
    (clear : session.log.hadError = false)
    (clean : IsClean source)
    (runs : Executes policy session.globals (Source.statements source) execution after) :
    RunsAs session (session.run policy source) execution.outcome execution.output after
      (execution.error?.toList.map RuntimeError.diagnostic) := by
  rw [run_of_isClean clear clean runs]
  refine ⟨rfl, rfl, rfl, ?_, rfl⟩
  simp only [UnitRecord.diagnostics, UnitRecord.lexicalDiagnostics,
    UnitRecord.grammarDiagnostics, UnitRecord.runtimeDiagnostics, clean.lexical,
    clean.grammatical, List.map_nil, List.nil_append, Option.bind_some]
  cases execution.error? <;> rfl

/--
Clean units come to the same one after another and joined by line feeds.  When
all of them end normally, so does the joined text, and nothing is reported.  At
the first runtime error the joined text ends as the failing unit does, and the
error is reported further down by the line feeds before that unit.
-/
theorem runsAs_joinUnits
    (policy : Policy)
    (units : List (List Char))
    (session : Session)
    (clear : session.log.hadError = false)
    (clean : ∀ unit ∈ units, IsClean unit) :
    ((∀ record ∈ (runEach policy units session).1, record.outcome? = some .normal) →
      RunsAs session (session.run policy (joinUnits units)) .normal
        (String.join ((runEach policy units session).1.map UnitRecord.output))
        (runEach policy units session).2.globals []) ∧
    ∀ (before following : List (List Char)) (unit : List Char) (error : RuntimeError),
      units = before ++ unit :: following →
      (∀ record ∈ (runEach policy before session).1, record.outcome? = some .normal) →
      ((runEach policy before session).2.run policy unit).1.outcome? = some (.failed error) →
      joinUnits units = textBefore before ++ joinUnits (unit :: following) ∧
        RunsAs session (session.run policy (joinUnits units))
          (.failed (error.shifted (lineFeeds (textBefore before))))
          (String.join ((runEach policy before session).1.map UnitRecord.output) ++
            ((runEach policy before session).2.run policy unit).1.output)
          ((runEach policy before session).2.run policy unit).2.globals
          [(error.shifted (lineFeeds (textBefore before))).diagnostic] := by
  constructor
  · intro normal
    obtain ⟨execution, runs, ends, output⟩ := exists_executes_joinUnits clear clean normal
    have joined := runsAs_of_executes clear (isClean_joinUnits clean) runs
    have noError : execution.error? = none := by
      simp only [Execution.error?, ends]
    rw [noError, ends, output] at joined
    exact joined
  · rintro before following unit error rfl normal fails
    obtain ⟨execution, runs, ends, output⟩ :=
      exists_executes_joinUnits_of_failed clear clean normal fails
    have joined := runsAs_of_executes clear (isClean_joinUnits clean) runs
    have failed :
        execution.error? = some (error.shifted (lineFeeds (textBefore before))) := by
      simp only [Execution.error?, ends]
    rw [failed, ends, output] at joined
    exact ⟨joinUnits_append before (by simp), joined⟩

/-- A declaration, a use, a use that fails on its second line and one that is not reached. -/
def failingUnits : List (List Char) :=
  ["var a = \"x\";\n".toList, "print a;".toList, "print\n-a;".toList, "print a;".toList]

/-- The third of four units fails on its second line, which is the fifth of the joined text. -/
theorem runsAs_joinUnits_failingUnits :
    (∀ unit ∈ failingUnits, IsClean unit) ∧
      ∃ left,
        RunsAs {} (run {} (joinUnits failingUnits) {})
          (.failed
            { token := { kind := .mark .minus, lexeme := "-", literal := .nil, line := 5 }
              fault := .operandNotNumber })
          "x\n" left
          [.runtime { kind := .mark .minus, lexeme := "-", literal := .nil, line := 5 }
            "Operand must be a number."] := by
  have clean : ∀ unit ∈ failingUnits, IsClean unit := by
    simp only [failingUnits, List.forall_mem_cons]
    refine ⟨⟨?_, ?_⟩, ⟨?_, ?_⟩, ⟨?_, ?_⟩, ⟨?_, ?_⟩, List.forall_mem_nil _⟩ <;>
      decide +kernel
  obtain ⟨_, failing⟩ := runsAs_joinUnits {} failingUnits {} rfl clean
  obtain ⟨_, joined⟩ :=
    failing (failingUnits.take 2) (failingUnits.drop 3) "print\n-a;".toList
      { token := { kind := .mark .minus, lexeme := "-", literal := .nil, line := 2 }
        fault := .operandNotNumber }
      rfl (by decide +kernel) (by decide +kernel)
  have written :
      String.join ((runEach {} (failingUnits.take 2) {}).1.map UnitRecord.output) ++
          ((runEach {} (failingUnits.take 2) {}).2.run {} "print\n-a;".toList).1.output =
        "x\n" := by
    decide +kernel
  rw [written] at joined
  exact ⟨clean, _, joined⟩

end Session

end BlockScript
