import BlockScript.Session
import BlockScript.Proofs.Machine.Parsing
import BlockScript.Proofs.Machine.Scanning
import BlockScript.Proofs.Machine.Interpreting

namespace BlockScript

/-!
# Running without a misstep

A runner takes a source through the parts of the machine: it scans the source,
reads the tokens and executes the statements, with the scope and the log that
earlier sources have left.  It runs every source as a session does, so that no
source and no sequence of sources leads it to a misstep.
-/

namespace Machine

/-- What lasts from one source to the next. -/
structure Runner where
  scopes : Environment
  log : Log

/-- What was read of a source, its listing, and its execution if it was executed. -/
structure Report where
  lexing : Lexing
  statements : List StmtNode
  errors : List GrammarError
  outlines : List String
  execution : Option Execution

/-- What a part of the machine gives that always comes to an end. -/
def ofPart
    {α : Type}
    (result : Except Misstep α) :
    ExceptT Misstep Option α :=
  ExceptT.mk (some result)

/-- The listing of statements, if there is to be one. -/
def outlines
    (listed : Bool)
    (statements : List StmtNode) :
    Except Misstep (List String) :=
  if listed then statements.mapM StmtNode.outline else .ok []

/-- Execute statements, which are listed before if so asked, and report their error. -/
def execute
    (policy : Policy)
    (listed : Bool)
    (statements : List StmtNode)
    (runner : Runner) :
    Except Misstep (List String × Execution × Runner) := do
  let shown ← outlines listed statements
  let (outcome, state) ←
    StmtNode.execProgram policy statements { scopes := runner.scopes, lines := [] }
  let execution : Execution := { lines := state.lines.reverse, outcome }
  let reported := execution.error?.toList.map RuntimeError.diagnostic
  pure (shown, execution, { scopes := state.scopes, log := runner.log.reportAll reported })

/-- Run one source. -/
def run
    (policy : Policy)
    (listed : Bool)
    (source : List Char)
    (runner : Runner)
    (fuel : Nat) :
    ExceptT Misstep Option (Report × Runner) := do
  let lexing ← lex source fuel
  let (statements, errors) ← parse lexing.tokens fuel
  let reported :=
    lexing.errors.map LexicalError.diagnostic ++ errors.map GrammarError.diagnostic
  let log := runner.log.reportAll reported
  if log.hadError then
    pure ({ lexing, statements, errors, outlines := [], execution := none }, { runner with log })
  else
    let (outlines, execution, after) ←
      ofPart (execute policy listed statements { runner with log })
    pure ({ lexing, statements, errors, outlines, execution := some execution }, after)

/-- The runners that come about: a new one, and those that runs, reports and resets leave. -/
inductive Runner.Reachable : Runner → Prop where
  | new : Reachable { scopes := [fun _ => none], log := .clear }
  | run
      {runner after : Runner} {policy : Policy} {listed : Bool} {source : List Char}
      {report : Report} (reachable : Reachable runner)
      (runs : Gives (run policy listed source runner) (report, after)) :
      Reachable after
  | report {runner : Runner} (diagnostic : Diagnostic) (reachable : Reachable runner) :
      Reachable { runner with log := runner.log.report diagnostic }
  | reset {runner : Runner} (reachable : Reachable runner) :
      Reachable { runner with log := .clear }

end Machine

/-- A session as the machine holds it. -/
def Session.runner
    (session : Session) :
    Machine.Runner where
  scopes := [Chain.image session.globals]
  log := session.log

/-- The record of a unit as the machine gives it. -/
def UnitRecord.report
    (listed : Bool)
    (record : UnitRecord) :
    Machine.Report where
  lexing := record.lexing
  statements := Stmt.nodes record.program.statements
  errors := record.program.errors
  outlines :=
    if record.execution.isSome && listed then record.program.statements.map Stmt.outline else []
  execution := record.execution

namespace Machine

/-- Statements that are laid out are listed as they are. -/
theorem outlines_nodes
    (listed : Bool)
    (statements : List Stmt) :
    outlines listed (Stmt.nodes statements) =
      .ok (if listed then statements.map Stmt.outline else []) := by
  have all : (Stmt.nodes statements).mapM StmtNode.outline = .ok (statements.map Stmt.outline) := by
    induction statements with
    | nil => rfl
    | cons first rest inductionHypothesis =>
        rw [Stmt.nodes, List.mapM_cons, outline_stmtNode, inductionHypothesis]
        rfl
  cases listed with
  | false => rfl
  | true => exact all

/-- Statements that are laid out are executed as a session executes them. -/
theorem execute_runner
    (policy : Policy)
    (listed : Bool)
    (statements : List Stmt)
    (session : Session) :
    execute policy listed (Stmt.nodes statements) session.runner =
      .ok (if listed then statements.map Stmt.outline else [],
        (session.execute policy statements).1, (session.execute policy statements).2.runner) := by
  have executes :
      StmtNode.execProgram policy (Stmt.nodes statements)
          { scopes := session.runner.scopes, lines := [] } = _ :=
    executes_program policy statements { chain := .globals session.globals, lines := [] }
  unfold execute Session.execute
  rw [outlines_nodes, executes]
  obtain ⟨outcome, ⟨chain, lines⟩⟩ :=
    Stmt.execProgram policy statements { chain := .globals session.globals, lines := [] }
  cases chain with
  | globals scope => rfl

/-- The tokens of a source have an end. -/
theorem hasEnd_ofSource
    (source : List Char) :
    ∃ token ∈ (Lexing.ofSource source).tokens, token.kind = .endOfInput :=
  ⟨Source.endToken source, by simp [Lexing.ofSource], rfl⟩

/-- The machine runs every source as the session does that it holds. -/
theorem gives_run
    (policy : Policy)
    (listed : Bool)
    (source : List Char)
    (session : Session) :
    Gives (run policy listed source session.runner)
      ((session.run policy source).1.report listed, (session.run policy source).2.runner) := by
  have sameLog : session.runner.log = session.log := rfl
  refine (gives_lex source).bind ((gives_parse (hasEnd_ofSource source)).bind ?_)
  unfold Session.run
  dsimp only
  rw [sameLog]
  generalize Program.ofTokens (Lexing.ofSource source).tokens = program
  generalize Lexing.ofSource source = lexing
  generalize
    session.log.reportAll
      (lexing.errors.map LexicalError.diagnostic ++
        program.errors.map GrammarError.diagnostic) = log
  by_cases hadError : log.hadError = true
  · simp only [hadError, ↓reduceIte]
    exact .of_run rfl
  · have executes := execute_runner policy listed program.statements { session with log }
    simp only [hadError, Bool.false_eq_true, ↓reduceIte]
    exact Gives.bind (.of_run (congrArg some executes)) (.of_run rfl)

/-- Every runner that comes about holds a session. -/
theorem Runner.Reachable.exists_session
    {runner : Runner}
    (reachable : runner.Reachable) :
    ∃ session : Session, runner = session.runner := by
  induction reachable with
  | new => exact ⟨{}, by simp [Session.runner, Chain.image_empty, Log.clear]⟩
  | @run runner after policy listed source report _ runs held =>
      obtain ⟨session, rfl⟩ := held
      have sameEnd := runs.unique (gives_run policy listed source session)
      exact ⟨(session.run policy source).2, congrArg Prod.snd sameEnd⟩
  | report diagnostic _ held =>
      obtain ⟨session, rfl⟩ := held
      exact ⟨{ session with log := session.log.report diagnostic }, rfl⟩
  | reset _ held =>
      obtain ⟨session, rfl⟩ := held
      exact ⟨session.reset, rfl⟩

/--
The machine never takes a misstep.  Every source is scanned and run to its end from
every runner that comes about; every list of tokens with an end token at its end is
read, whatever the tokens before it are; and whatever was built through the
constructors is evaluated and executed.  What the machine gives is in each case what
the program gives.
-/
theorem never_missteps :
    (∀ (policy : Policy) (listed : Bool) (source : List Char) (runner : Runner),
        runner.Reachable →
        ∃ session : Session,
          runner = session.runner ∧
            Gives (run policy listed source runner)
              ((session.run policy source).1.report listed,
                (session.run policy source).2.runner)) ∧
      (∀ source : List Char, Gives (lex source) (Lexing.ofSource source)) ∧
        (∀ (tokens : List Token) (last : Token),
          last.kind = .endOfInput →
          Gives (parse (tokens ++ [last]))
            (Stmt.nodes (Program.ofTokens (tokens ++ [last])).statements,
              (Program.ofTokens (tokens ++ [last])).errors)) ∧
          (∀ node : ExprNode,
            node.IsBuilt →
            ∃ expr : Expr,
              node = expr.node ∧
                ∀ (depth : Nat) (chain : Chain depth),
                  Evaluates node.eval chain (expr.eval chain)) ∧
            ∀ node : StmtNode,
              node.IsBuilt →
              ∃ statement : Stmt,
                node = statement.node ∧
                  ∀ (policy : Policy) (depth : Nat) (world : World depth),
                    Executes (node.exec policy) world (statement.exec policy world) := by
  refine ⟨?_, gives_lex, ?_, ?_, ?_⟩
  · intro policy listed source runner reachable
    obtain ⟨session, rfl⟩ := reachable.exists_session
    exact ⟨session, rfl, gives_run policy listed source session⟩
  · intro tokens last isEnd
    exact gives_parse ⟨last, by simp, isEnd⟩
  · intro node built
    obtain ⟨expr, rfl⟩ := built.exists_node
    exact ⟨expr, rfl, fun _ chain => evaluates_node expr chain⟩
  · intro node built
    obtain ⟨statement, rfl⟩ := built.exists_node
    exact ⟨statement, rfl, fun policy _ world => executes_node policy statement world⟩

/-- A minus sign, which is an operator in both places. -/
def minusSign : Token where
  kind := .mark .minus
  lexeme := "-"
  literal := .nil
  line := 1

/-- An end token. -/
def endMark : Token where
  kind := .endOfInput
  lexeme := ""
  literal := .nil
  line := 1

/-- A truth value cannot be negated, but trying to is no misstep. -/
def negatedTruth : ExprNode :=
  .unary minusSign 0 (.literal (.bool true))

/-- A runner that is new runs a source, tokens may end early, and a negation is built. -/
theorem never_missteps_negation :
    (∃ session : Session,
        ({ scopes := [fun _ => none], log := .clear } : Runner) = session.runner ∧
          Gives
            (run {} true "print -true;".toList { scopes := [fun _ => none], log := .clear })
            ((session.run {} "print -true;".toList).1.report true,
              (session.run {} "print -true;".toList).2.runner)) ∧
      Gives (parse ([endMark, minusSign] ++ [endMark]))
          (Stmt.nodes (Program.ofTokens ([endMark, minusSign] ++ [endMark])).statements,
            (Program.ofTokens ([endMark, minusSign] ++ [endMark])).errors) ∧
        (∃ expr : Expr,
          negatedTruth = expr.node ∧
            ∀ (depth : Nat) (chain : Chain depth),
              Evaluates negatedTruth.eval chain (expr.eval chain)) ∧
          ∃ statement : Stmt,
            StmtNode.print negatedTruth = statement.node ∧
              ∀ (policy : Policy) (depth : Nat) (world : World depth),
                Executes ((StmtNode.print negatedTruth).exec policy) world
                  (statement.exec policy world) :=
  have builds : ExprNode.ofUnary minusSign (.literal (.bool true)) = .ok negatedTruth := rfl
  have built : negatedTruth.IsBuilt := .unary (.literal (.bool true)) builds
  ⟨never_missteps.1 {} true "print -true;".toList _ .new,
    never_missteps.2.2.1 [endMark, minusSign] endMark rfl,
    never_missteps.2.2.2.1 negatedTruth built,
    never_missteps.2.2.2.2 (.print negatedTruth) (.print built)⟩

end Machine

end BlockScript
