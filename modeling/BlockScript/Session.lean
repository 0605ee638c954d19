import BlockScript.Log
import BlockScript.Reading.Program
import BlockScript.Tree.Outline
import BlockScript.Execution.Statement

namespace BlockScript

/-!
# Sessions

A session runs units of source text one after another.  The units share the
global scope and the log.  A unit is executed only when no error of a source has
been reported since the log was last cleared, by this unit or an earlier one.

Running a unit gives a record of what was read, reported and executed.  Listings
and colours are ways to show the record, so that they cannot change what a unit
does.
-/

/-- What executing a unit wrote, the first line first, and how it ended. -/
structure Execution where
  lines : List Line
  outcome : Outcome
  deriving Repr, DecidableEq

/-- What was read of a unit, and its execution if it was executed. -/
structure UnitRecord where
  lexing : Lexing
  program : Program
  execution : Option Execution
  deriving Repr

/-- What lasts from one unit to the next. -/
structure Session where
  globals : Scope := ∅
  log : Log := {}

namespace Execution

/-- The runtime error that ended an execution. -/
def error?
    (execution : Execution) :
    Option RuntimeError :=
  match execution.outcome with
  | .failed error => some error
  | .normal | .left | .exhausted => none

/-- What an execution wrote. -/
def output
    (execution : Execution) :
    String :=
  String.join (execution.lines.map fun line => line.text ++ "\n")

end Execution

namespace UnitRecord

/-- The lexical errors of a unit. -/
def lexicalDiagnostics
    (record : UnitRecord) :
    List Diagnostic :=
  record.lexing.errors.map LexicalError.diagnostic

/-- The grammar errors of a unit. -/
def grammarDiagnostics
    (record : UnitRecord) :
    List Diagnostic :=
  record.program.errors.map GrammarError.diagnostic

/-- The runtime error of a unit, if it was executed and failed. -/
def runtimeDiagnostics
    (record : UnitRecord) :
    List Diagnostic :=
  ((record.execution.bind Execution.error?).map RuntimeError.diagnostic).toList

/-- Everything reported of a unit, in order. -/
def diagnostics
    (record : UnitRecord) :
    List Diagnostic :=
  record.lexicalDiagnostics ++ record.grammarDiagnostics ++ record.runtimeDiagnostics

/-- What a unit wrote as its output. -/
def output
    (record : UnitRecord) :
    String :=
  match record.execution with
  | some execution => execution.output
  | none => ""

/-- The listing of the tokens of a unit, one a line. -/
def tokenListing
    (record : UnitRecord) :
    String :=
  String.join (record.lexing.tokens.map fun token => token.listed ++ "\n")

/-- The listing of the statements of a unit, one a line; there is none unless it was executed. -/
def treeListing
    (record : UnitRecord) :
    String :=
  match record.execution with
  | some _ => String.join (record.program.statements.map fun statement => statement.outline ++ "\n")
  | none => ""

end UnitRecord

namespace Session

/-- Execute statements in the global scope of a session, reporting their error. -/
def execute
    (policy : Policy)
    (statements : List Stmt)
    (session : Session) :
    Execution × Session :=
  let (outcome, world) :=
    Stmt.execProgram policy statements { chain := .globals session.globals, lines := [] }
  let execution : Execution := { lines := world.lines.reverse, outcome }
  let reported := execution.error?.toList.map RuntimeError.diagnostic
  (execution,
    { globals := world.chain.globalScope
      log := session.log.reportAll reported })

/-- Run one unit of source text. -/
def run
    (policy : Policy)
    (source : List Char)
    (session : Session) :
    UnitRecord × Session :=
  let lexing := Lexing.ofSource source
  let program := Program.ofTokens lexing.tokens
  let reported :=
    lexing.errors.map LexicalError.diagnostic ++ program.errors.map GrammarError.diagnostic
  let log := session.log.reportAll reported
  if log.hadError then
    ({ lexing, program, execution := none }, { session with log })
  else
    let (execution, after) := { session with log }.execute policy program.statements
    ({ lexing, program, execution := some execution }, after)

/-- Clear the log. -/
def reset
    (session : Session) :
    Session :=
  { session with log := .clear }

end Session

end BlockScript
