import BlockScript.CommandLine.Command
import BlockScript.Proofs.Execution.Leaving
import BlockScript.Proofs.Session.Gate

namespace BlockScript

open Source

/-!
# The status of a script

The status of a script is read off the log when its only unit has been run.  The
log has been told what reading and executing the unit came to, so the status says
whether the source has errors, the program failed, or neither.  What the command
was asked to echo, list and paint is not looked at on the way, and so two
commands that run the same script agree in their status and in their output.
-/

namespace CommandLine

/-- All that a command depends on, the libraries that it is run with included. -/
structure Invocation where
  libraries : Libraries
  arguments : List String
  defaultFile : String
  folder : Folder
  input : ByteArray
  terminal : Bool

namespace Invocation

/-- What a command writes, and its status, when loops may run the given number of rounds. -/
def transcript
    (invocation : Invocation)
    (rounds : Nat) :
    Transcript :=
  invocation.libraries.run invocation.arguments invocation.defaultFile invocation.folder
    invocation.input invocation.terminal rounds

/-- A command runs a script that holds the given octets, with settings that are valid. -/
def RunsScript
    (invocation : Invocation)
    (octets : ByteArray) :
    Prop :=
  ∃ words file settings,
    Request.ofOptions (invocation.libraries.options invocation.arguments) =
        .script words file ∧
      settingsFor invocation.libraries.documents words invocation.defaultFile
          (invocation.folder.content invocation.input) =
          .ok settings ∧
        invocation.folder.content
            (invocation.folder.inputLeft invocation.input
              (words.settingsFile invocation.defaultFile)) file =
          .octets octets

end Invocation

/-- The only unit of a script is run in a session of its own. -/
def scriptRun
    (rounds : Nat)
    (octets : ByteArray) :
    UnitRecord × Session :=
  ({} : Session).run { rounds } (unitOf octets)

/-- The output and the status of a script are those of its unit, whatever the settings. -/
theorem Invocation.RunsScript.transcript_eq
    {invocation : Invocation}
    {octets : ByteArray}
    (runs : invocation.RunsScript octets)
    (rounds : Nat) :
    (invocation.transcript rounds).output = (scriptRun rounds octets).1.output ∧
      (invocation.transcript rounds).status = scriptStatus (scriptRun rounds octets).2.log := by
  obtain ⟨words, file, settings, asked, readSettings, readScript⟩ := runs
  simp only [Invocation.transcript, Libraries.run, asked, readSettings, readScript, runScript]
  exact ⟨rfl, rfl⟩

/-- A program ends by a runtime error. -/
def Fails
    (rounds : Nat)
    (source : List Char) :
    Prop :=
  ∃ execution after error,
    Executes { rounds } ∅ (statements source) execution after ∧
      execution.outcome = .failed error

/-- What a script comes to: errors of its source, a runtime error, or neither. -/
inductive ComesTo
    (rounds : Nat)
    (source : List Char)
    (ran : UnitRecord × Session) :
    Prop where
  | sourceErrors
      (unclean : ¬IsClean source)
      (silent : ran.1.output = "")
      (status : scriptStatus ran.2.log = 65)
  | failure
      (clean : IsClean source)
      (fails : Fails rounds source)
      (status : scriptStatus ran.2.log = 70)
  | success
      (clean : IsClean source)
      (succeeds : ¬Fails rounds source)
      (status : scriptStatus ran.2.log = 0)

/-- An execution has the only outcome that there is. -/
theorem fails_iff
    {rounds : Nat}
    {source : List Char}
    {execution : Execution}
    {after : Scope}
    (runs : Executes { rounds } ∅ (statements source) execution after) :
    Fails rounds source ↔ ∃ error, execution.outcome = .failed error := by
  constructor
  · rintro ⟨other, _, error, alsoRuns, fails⟩
    have same := congrArg Prod.fst (runs.symm.trans alsoRuns)
    exact ⟨error, same.trans fails⟩
  · rintro ⟨error, fails⟩
    exact ⟨execution, after, error, runs, fails⟩

/-- A script that halts comes to one of the three. -/
theorem comesTo_scriptRun
    {rounds : Nat}
    {octets : ByteArray}
    (halts : (scriptRun rounds octets).1.outcome? ≠ some .exhausted) :
    ComesTo rounds (unitOf octets) (scriptRun rounds octets) := by
  by_cases clean : IsClean (unitOf octets)
  · obtain ⟨execution, after, runs⟩ :=
      exists_executes { rounds } ∅ (statements (unitOf octets))
    have ran : scriptRun rounds octets = _ := Session.run_of_isClean rfl clean runs
    rw [ran] at halts ⊢
    have stays := Stmt.execProgram_ne_left { rounds } (statements (unitOf octets))
      { chain := .globals ∅, lines := [] }
    rw [show Stmt.execProgram _ _ _ = _ from runs] at stays
    cases ends : execution.outcome with
    | normal =>
        refine .success clean ?_ ?_
        · rw [fails_iff runs, ends]
          simp
        · simp [Execution.error?, ends, Log.reportAll, scriptStatus]
    | left => exact absurd ends stays
    | failed error =>
        refine .failure clean ((fails_iff runs).mpr ⟨error, ends⟩) ?_
        simp [Execution.error?, ends, Log.reportAll, Log.report, scriptStatus, Status.failure]
    | exhausted => exact absurd (congrArg some ends) halts
  · have gated := (Session.hadError_reportAll_diagnostics_iff {} _).mpr (.inr clean)
    have ran : scriptRun rounds octets = _ := Session.run_of_not_isClean { rounds } clean
    rw [ran]
    refine .sourceErrors clean rfl ?_
    simp only [scriptStatus, gated, ↓reduceIte, Status.source]

/--
The status of a script that halts is 65 exactly when its source has errors, and
then it writes no output; it is 70 exactly when the source has none and the
program fails, and 0 otherwise.  Every other command that runs the same octets as
a script, with any libraries, options and valid settings, has the same status and
output.
-/
theorem status_tells_outcome
    {invocation : Invocation}
    {octets : ByteArray}
    {rounds : Nat}
    (runs : invocation.RunsScript octets)
    (halts : (scriptRun rounds octets).1.outcome? ≠ some .exhausted) :
    let source := unitOf octets
    let transcript := invocation.transcript rounds
    (transcript.status = 65 ↔ ¬IsClean source) ∧
      (¬IsClean source → transcript.output = "") ∧
        (transcript.status = 70 ↔ IsClean source ∧ Fails rounds source) ∧
          (transcript.status = 0 ↔ IsClean source ∧ ¬Fails rounds source) ∧
            ∀ (other : Invocation) (otherRounds : Nat),
              other.RunsScript octets →
              (scriptRun otherRounds octets).1.outcome? ≠ some .exhausted →
              (other.transcript otherRounds).status = transcript.status ∧
                (other.transcript otherRounds).output = transcript.output := by
  intro source transcript
  obtain ⟨sameOutput, sameStatus⟩ := runs.transcript_eq rounds
  have outcomes := comesTo_scriptRun halts
  rw [← and_assoc, ← and_assoc, ← and_assoc]
  constructor
  · rw [sameStatus, sameOutput]
    rcases outcomes with ⟨unclean, silent, status⟩ | ⟨clean, fails, status⟩ |
      ⟨clean, succeeds, status⟩
    · simp [status, source, unclean, silent]
    · simp [status, source, clean, fails]
    · simp [status, source, clean, succeeds]
  · intro other otherRounds alsoRuns alsoHalts
    obtain ⟨otherOutput, otherStatus⟩ := alsoRuns.transcript_eq otherRounds
    have sameRun : scriptRun otherRounds octets = scriptRun rounds octets :=
      Session.run_eq_of_halts halts alsoHalts
    rw [otherOutput, otherStatus, sameRun]
    exact ⟨sameStatus.symm, sameOutput.symm⟩

/-- The octets of a script that prints a line and then negates a text. -/
def failingScript : ByteArray :=
  "print \"x\"; -\"x\";".toUTF8

/-- A command that runs that script with the given options. -/
def failingInvocation
    (options : List String) :
    Invocation where
  libraries := .standard
  arguments := options ++ ["s"]
  defaultFile := ""
  folder := { entries := [(["s"], .file failingScript)] }
  input := ByteArray.empty
  terminal := false

/-- The script is found under its name. -/
theorem content_failingInvocation
    (options : List String)
    (input : ByteArray) :
    (failingInvocation options).folder.content input "s" = .octets failingScript := by
  have parts : Folder.partsOf "s" = ["s"] := by
    -- The recursion of `splitOn` is on a position, so it is unfolded at each of the two.
    unfold Folder.partsOf String.splitOn
    rw [if_neg (by decide), String.splitOnAux, if_neg (by decide +kernel),
      if_neg (by decide +kernel), String.splitOnAux, if_pos (by decide +kernel)]
    decide +kernel
  simp only [Folder.content, Folder.find, parts]
  rfl

/-- The status and the output are the same with all three options as without them. -/
theorem status_tells_outcome_failingScript :
    ((failingInvocation []).transcript 1).status = 70 ∧
      (IsClean (unitOf failingScript) ∧ Fails 1 (unitOf failingScript)) ∧
        ((failingInvocation ["-eta"]).transcript 2).status = 70 ∧
          ((failingInvocation ["-eta"]).transcript 2).output =
            ((failingInvocation []).transcript 1).output := by
  have plain : (failingInvocation []).RunsScript failingScript :=
    ⟨{ flags := [], operands := ["s"] }, "s", _, by decide +kernel, rfl,
      content_failingInvocation _ _⟩
  have loud : (failingInvocation ["-eta"]).RunsScript failingScript :=
    ⟨{ flags := [.echo, .listTokens, .listTree], operands := ["s"] }, "s", _, by decide +kernel,
      rfl, content_failingInvocation _ _⟩
  have halts : (scriptRun 1 failingScript).1.outcome? ≠ some .exhausted := by decide +kernel
  have alsoHalts : (scriptRun 2 failingScript).1.outcome? ≠ some .exhausted := by decide +kernel
  obtain ⟨_, _, onFailure, _, same⟩ := status_tells_outcome plain halts
  have status : ((failingInvocation []).transcript 1).status = 70 := by
    rw [(plain.transcript_eq 1).2]
    decide +kernel
  obtain ⟨sameStatus, sameOutput⟩ := same (failingInvocation ["-eta"]) 2 loud alsoHalts
  exact ⟨status, onFailure.mp status, sameStatus.trans status, sameOutput⟩

end CommandLine

end BlockScript
