import BlockScript.Proofs.Scoping.Growth
import BlockScript.Proofs.Scoping.Lexical
import BlockScript.Proofs.Session.Steps

namespace BlockScript

open Source

/-!
# The global names

A program is read so that a declaration stands only among the statements of the
program or of a block.  A statement of the program that is no declaration
therefore leaves the global names as they are, and a declaration adds its name
once it has ended.  So a unit adds the names that it declares outside all blocks,
up to the statement that fails.
-/

namespace Stmt

/-- The name that a statement declares itself. -/
def declaredName? : Stmt → Option String
  | .declare name _ => some name.lexeme
  | _ => none

/-- A statement that declares in blocks, and is no declaration, declares only in its blocks. -/
theorem openNames_eq_nil :
    (statement : Stmt) →
    statement.declaresInBlocks = true →
    statement.isDeclaration = false →
    statement.openNames = []
  | .block _, _, _ => rfl
  | .leave _, _, _ => rfl
  | .expression _, _, _ => rfl
  | .ifThen _ thenBranch, placed, _ => by
      simp only [declaresInBlocks, Bool.and_eq_true, Bool.not_eq_true'] at placed
      exact openNames_eq_nil thenBranch placed.2 placed.1
  | .ifElse _ thenBranch elseBranch, placed, _ => by
      simp only [declaresInBlocks, Bool.and_eq_true, Bool.not_eq_true'] at placed
      simp only [openNames, List.append_eq_nil_iff]
      exact ⟨openNames_eq_nil thenBranch placed.1.2 placed.1.1,
        openNames_eq_nil elseBranch placed.2.2 placed.2.1⟩
  | .print _, _, _ => rfl
  | .declare .., _, other => Bool.noConfusion other
  | .loop _ body, placed, _ => by
      simp only [declaresInBlocks, Bool.and_eq_true, Bool.not_eq_true'] at placed
      exact openNames_eq_nil body placed.2 placed.1

/-- Each of the statements of a block or a program declares in blocks only. -/
theorem declaresInBlocks_of_mem
    {statements : List Stmt}
    (placed : allDeclareInBlocks statements = true) :
    ∀ statement ∈ statements, statement.declaresInBlocks = true := by
  induction statements with
  | nil =>
      exact nofun
  | cons first rest inductionHypothesis =>
      simp only [allDeclareInBlocks, Bool.and_eq_true] at placed
      rw [List.forall_mem_cons]
      exact ⟨placed.1, inductionHypothesis placed.2⟩

variable {policy : Policy} {depth : Nat}

/-- A statement that is no declaration adds no name to any scope, however it ends. -/
theorem grows_exec_of_not_isDeclaration
    {statement : Stmt}
    (placed : statement.declaresInBlocks = true)
    (other : statement.isDeclaration = false)
    (world : World depth) :
    world.chain.Grows [] (statement.exec policy world).2.chain := by
  have within := growsWithin_exec policy statement world
  rw [openNames_eq_nil statement placed other] at within
  exact within.grows

/-- A declaration adds its name when its value is known, and else nothing. -/
theorem grows_exec_declare
    (name : Token)
    (initial : Option Expr)
    (world : World depth) :
    let ending := (Stmt.declare name initial).exec policy world
    (ending.1 = .normal ∧ world.chain.Grows [name.lexeme] ending.2.chain) ∨
      ∃ error, ending.1 = .failed error ∧ world.chain.Grows [] ending.2.chain := by
  cases initial with
  | none =>
      simp only [exec]
      exact .inl ⟨trivial, world.chain.grows_define name.lexeme .nil⟩
  | some initial =>
      have evaluates := initial.grows_eval world.chain
      simp only [exec, World.withValue]
      cases (initial.eval world.chain).result with
      | ok value =>
          exact .inl ⟨rfl, evaluates.trans (Chain.grows_define name.lexeme value _)⟩
      | error error => exact .inr ⟨error, rfl, evaluates⟩

/-- A statement of a program adds the name that it declares once it has ended. -/
theorem grows_exec_of_completed
    {statement : Stmt}
    (placed : statement.declaresInBlocks = true)
    (world : World depth)
    (completed : ∀ error, (statement.exec policy world).1 ≠ .failed error) :
    world.chain.Grows statement.declaredName?.toList (statement.exec policy world).2.chain := by
  cases statement with
  | declare name initial =>
      rcases grows_exec_declare name initial world with ⟨_, grows⟩ | ⟨error, fails, _⟩
      · exact grows
      · exact absurd fails (completed error)
  | _ => exact grows_exec_of_not_isDeclaration placed rfl world

/-- A statement of a program that fails adds no name. -/
theorem grows_exec_of_failed
    {statement : Stmt}
    (placed : statement.declaresInBlocks = true)
    (world : World depth)
    {error : RuntimeError}
    (fails : (statement.exec policy world).1 = .failed error) :
    world.chain.Grows [] (statement.exec policy world).2.chain := by
  cases statement with
  | declare name initial =>
      rcases grows_exec_declare name initial world with ⟨normal, _⟩ | ⟨_, _, grows⟩
      · rw [normal] at fails
        cases fails
      · exact grows
  | _ => exact grows_exec_of_not_isDeclaration placed rfl world

/-- A program has come to its end, or a statement behind those that completed has failed. -/
inductive StopsBehind
    (policy : Policy)
    (world : World 0)
    (completed : List Stmt) :
    List Stmt → Outcome → Prop where
  | atEnd :
      StopsBehind policy world completed [] .normal
  | failed
      {failing : Stmt}
      {others : List Stmt}
      {error : RuntimeError}
      {reached : World 0}
      (reaches : execProgram policy completed world = (.normal, reached))
      (fails : (failing.exec policy reached).1 = .failed error) :
      StopsBehind policy world completed (failing :: others) (.failed error)

/-- A program begins with its first statement when that does not fail and does not run out. -/
theorem execProgram_cons_of_completed
    {first : Stmt}
    {world after : World 0}
    {outcome : Outcome}
    (ends : first.exec policy world = (outcome, after))
    (completes : outcome = .normal ∨ outcome = .left)
    (rest : List Stmt) :
    execProgram policy (first :: rest) world = execProgram policy rest after := by
  rw [execProgram, ends]
  rcases completes with rfl | rfl <;> rfl

/-- A program stops behind its first statement where the others do. -/
theorem StopsBehind.cons
    {first : Stmt}
    {completed rest : List Stmt}
    {world after : World 0}
    {outcome : Outcome}
    (begins :
      ∀ others, execProgram policy (first :: others) world = execProgram policy others after)
    (stops : StopsBehind policy after completed rest outcome) :
    StopsBehind policy world (first :: completed) rest outcome := by
  cases stops with
  | atEnd => exact .atEnd
  | failed reaches fails => exact .failed ((begins completed).trans reaches) fails

/-- A program that halts adds the names that its completed statements declare. -/
theorem exists_grows_execProgram
    {statements : List Stmt}
    (placed : allDeclareInBlocks statements = true)
    {world : World 0}
    (halts : (execProgram policy statements world).1 ≠ .exhausted) :
    ∃ completed rest,
      statements = completed ++ rest ∧
        StopsBehind policy world completed rest (execProgram policy statements world).1 ∧
          world.chain.Grows (completed.filterMap declaredName?)
            (execProgram policy statements world).2.chain := by
  induction statements generalizing world with
  | nil =>
      exact ⟨[], [], rfl, .atEnd, .refl world.chain⟩
  | cons first rest inductionHypothesis =>
      simp only [allDeclareInBlocks, Bool.and_eq_true] at placed
      have grows :
          (∀ error, (first.exec policy world).1 ≠ .failed error) →
            world.chain.Grows first.declaredName?.toList (first.exec policy world).2.chain :=
        grows_exec_of_completed placed.1 world
      have growsFailed :
          ∀ error, (first.exec policy world).1 = .failed error →
            world.chain.Grows [] (first.exec policy world).2.chain :=
        fun error => grows_exec_of_failed placed.1 world
      obtain ⟨outcome, after, ends⟩ :
          ∃ outcome after, first.exec policy world = (outcome, after) :=
        ⟨_, _, rfl⟩
      rw [ends] at grows growsFailed
      -- A statement that leaves a loop outside every loop has completed as well.
      have goesOn
          (completes : outcome = .normal ∨ outcome = .left) :
          ∃ completed others,
            first :: rest = completed ++ others ∧
              StopsBehind policy world completed others
                  (execProgram policy (first :: rest) world).1 ∧
                world.chain.Grows (completed.filterMap declaredName?)
                  (execProgram policy (first :: rest) world).2.chain := by
        have begins := execProgram_cons_of_completed ends completes
        have grown := grows fun error isFailed => by
          rcases completes with rfl | rfl <;> cases isFailed
        rw [begins rest] at halts ⊢
        obtain ⟨completed, others, rfl, stops, growsOn⟩ := inductionHypothesis placed.2 halts
        refine ⟨first :: completed, others, rfl, stops.cons begins, ?_⟩
        have names :
            (first :: completed).filterMap declaredName? =
              first.declaredName?.toList ++ completed.filterMap declaredName? := by
          cases declares : first.declaredName? <;> simp [declares]
        rw [names]
        exact grown.trans growsOn
      cases outcome with
      | normal => exact goesOn (.inl rfl)
      | left => exact goesOn (.inr rfl)
      | failed error =>
          have stops : execProgram policy (first :: rest) world = (.failed error, after) := by
            rw [execProgram, ends]
          rw [stops]
          exact ⟨[], first :: rest, rfl, .failed rfl (by rw [ends]), growsFailed error rfl⟩
      | exhausted =>
          rw [execProgram, ends] at halts
          exact absurd rfl halts

end Stmt

namespace Session

/--
A unit that is executed adds to the global names those that its completed
statements declare: all of the program, or those before the statement that fails.
A statement of the program that is no declaration itself neither adds nor removes
a global name, wherever it is executed and however it ends.
-/
theorem globals_gain_declared_names
    {source : List Char}
    (clean : IsClean source)
    (policy : Policy)
    (session : Session)
    (isOpen : session.log.hadError = false)
    (halts : (session.run policy source).1.outcome? ≠ some .exhausted) :
    (∃ completed rest outcome,
      statements source = completed ++ rest ∧
        (session.run policy source).1.outcome? = some outcome ∧
          Stmt.StopsBehind policy { chain := .globals session.globals, lines := [] } completed rest
              outcome ∧
            ∀ name,
              name ∈ (session.run policy source).2.globals ↔
                name ∈ session.globals ∨ name ∈ completed.filterMap Stmt.declaredName?) ∧
      ∀ statement ∈ statements source, statement.declaredName? = none →
        ∀ (world : World 0) (name : String),
          name ∈ (statement.exec policy world).2.chain.globalScope ↔
            name ∈ world.chain.globalScope := by
  have placed := clean.phrase.allDeclareInBlocks
  constructor
  · obtain ⟨execution, after, runs⟩ := exists_executes policy session.globals (statements source)
    rw [run_of_isClean isOpen clean runs] at halts ⊢
    unfold Executes at runs
    have ends :
        (Stmt.execProgram policy (statements source)
          { chain := .globals session.globals, lines := [] }).1 ≠ .exhausted := by
      rw [runs]
      exact fun isExhausted => halts (congrArg some isExhausted)
    obtain ⟨completed, rest, together, stops, grows⟩ := Stmt.exists_grows_execProgram placed ends
    rw [runs] at stops grows
    exact ⟨completed, rest, execution.outcome, together, rfl, stops, grows.gains_globalScope⟩
  · intro statement isStatement undeclared world name
    have other : statement.isDeclaration = false := by
      cases statement with
      | declare => cases undeclared
      | _ => rfl
    have grows : world.chain.Grows [] (statement.exec policy world).2.chain :=
      Stmt.grows_exec_of_not_isDeclaration
        (Stmt.declaresInBlocks_of_mem placed statement isStatement) other world
    simpa using grows.gains_globalScope name

/-- A declaration, and declarations inside a block, the header of a loop and its body. -/
def nestedDeclarations : List Char :=
  "var a; \x7bvar b; a = b;\x7d for (var c = !a; c; c = a) \x7bvar d;\x7d".toList

/-- Only the name that is declared outside all blocks is a global name afterwards. -/
theorem globals_gain_declared_names_nestedDeclarations :
    IsClean nestedDeclarations ∧
      (({} : Session).run { rounds := 2 } nestedDeclarations).1.outcome? = some .normal ∧
        ∀ name,
          name ∈ (({} : Session).run { rounds := 2 } nestedDeclarations).2.globals ↔
            name = "a" := by
  have clean : IsClean nestedDeclarations := ⟨by decide +kernel, by decide +kernel⟩
  have normal :
      (({} : Session).run { rounds := 2 } nestedDeclarations).1.outcome? = some .normal := by
    decide +kernel
  have declared : (statements nestedDeclarations).filterMap Stmt.declaredName? = ["a"] := by
    decide +kernel
  obtain ⟨⟨completed, rest, outcome, together, ends, stops, gains⟩, _⟩ :=
    globals_gain_declared_names clean { rounds := 2 } {} rfl (by rw [normal]; exact nofun)
  cases Option.some.inj (normal.symm.trans ends)
  cases stops with
  | atEnd =>
      rw [together, List.append_nil] at declared
      refine ⟨clean, normal, fun name => ?_⟩
      rw [gains name, declared]
      simp

end Session

end BlockScript
