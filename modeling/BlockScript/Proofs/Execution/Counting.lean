import BlockScript.Proofs.Execution.Relating
import BlockScript.Proofs.Session.Globals

namespace BlockScript

/-!
# Counting loops

A counting loop is read as a block around a loop whose body is a block again: it
holds the body of the counting loop and its step.  Executed directly, a counting
loop has one scope, in which its first part, its condition, its body and its step
are run.  Both come to the same, because the inner block declares nothing: the
body of a loop is a statement and so never a declaration.
-/

namespace World

variable {depth : Nat}

/-- Go on with whether a condition holds; a missing one always does. -/
def withTest
    (world : World depth)
    (condition : Option Expr)
    (next : Bool → World depth → Outcome × World depth) :
    Outcome × World depth :=
  match condition with
  | none => next true world
  | some expr => world.withValue expr fun value tested => next value.isTruthy tested

/-- Evaluate the step of a loop, if there is one, and go on without its value. -/
def afterStep
    (world : World depth)
    (step : Option Expr)
    (next : World depth → Outcome × World depth) :
    Outcome × World depth :=
  match step with
  | none => next world
  | some expr => world.withValue expr fun _ after => next after

/--
Run the body and then the step as long as the condition holds, at most the given
number of times.  Leaving the loop ends it normally, and then the step is not run.
-/
def countWhile
    (condition step : Option Expr)
    (body : World depth → Outcome × World depth) :
    Nat → World depth → Outcome × World depth
  | 0, world => (.exhausted, world)
  | rounds + 1, world =>
      world.withTest condition fun holds tested =>
        if holds then
          match body tested with
          | (.normal, after) => after.afterStep step (countWhile condition step body rounds)
          | (.left, after) => (.normal, after)
          | (.failed error, after) => (.failed error, after)
          | (.exhausted, after) => (.exhausted, after)
        else
          (.normal, tested)

/-- A step that is evaluated before more is run either fails or goes on behind it. -/
theorem afterStep_eq
    (world : World depth)
    (step : Option Expr)
    (next : World depth → Outcome × World depth) :
    world.afterStep step next =
      match world.afterStep step fun last => (.normal, last) with
      | (.normal, after) => next after
      | (.left, after) => (.normal, after)
      | (.failed error, after) => (.failed error, after)
      | (.exhausted, after) => (.exhausted, after) := by
  cases step with
  | none => rfl
  | some expr =>
      simp only [afterStep, withValue]
      cases (expr.eval world.chain).result <;> rfl

/-- A missing condition is read as one that always holds. -/
theorem withValue_getD
    (world : World depth)
    (condition : Option Expr)
    (next : Bool → World depth → Outcome × World depth) :
    (world.withValue (condition.getD (.literal (.bool true)))
        fun value tested => next value.isTruthy tested) =
      world.withTest condition next := by
  cases condition <;> rfl

end World

namespace Stmt

/--
Execute a counting loop directly: open one scope, run the first part in it, then
run the rounds in it, and drop it at the end.
-/
def execCounting
    (policy : Policy)
    (initial : Option Stmt)
    (condition step : Option Expr)
    (body : Stmt)
    {depth : Nat}
    (world : World depth) :
    Outcome × World depth :=
  world.inBlock fun entered =>
    match execAll policy initial.toList entered with
    | (.normal, begun) => World.countWhile condition step (body.exec policy) policy.rounds begun
    | (.left, begun) => (.left, begun)
    | (.failed error, begun) => (.failed error, begun)
    | (.exhausted, begun) => (.exhausted, begun)

end Stmt

/-! ## A block that declares nothing -/

namespace Chain

/-- The second chain has one more scope, which is empty and holds the given number of scopes. -/
inductive Padded : ChainRelation where
  | here
      {depth : Nat}
      (chain : Chain depth) :
      Padded 0 chain chain.enter
  | within
      {inner depth other : Nat}
      {chain : Chain depth}
      {wider : Chain other}
      (scope : Scope)
      (padded : Padded inner chain wider) :
      Padded (inner + 1) (.nested scope chain) (.nested scope wider)

/-- A name has the same value with an empty scope in between. -/
theorem Padded.get?_eq
    {inner depth other : Nat}
    {chain : Chain depth}
    {wider : Chain other}
    (padded : Padded inner chain wider)
    (name : String) :
    chain.get? name = wider.get? name := by
  induction padded with
  | here chain => simp [enter, get?]
  | within scope _ inductionHypothesis => simp only [get?, inductionHypothesis]

/-- A name is assigned to in the same scope with an empty one in between. -/
theorem Padded.assign?_rel
    {inner depth other : Nat}
    {chain : Chain depth}
    {wider : Chain other}
    (padded : Padded inner chain wider)
    (name : String)
    (value : Value) :
    Option.Rel (Padded inner) (chain.assign? name value) (wider.assign? name value) := by
  induction padded with
  | here chain =>
      have passes :
          chain.enter.assign? name value = (chain.assign? name value).map (.nested ∅) := by
        simp [enter, assign?]
      rw [passes]
      cases chain.assign? name value with
      | none => exact .none
      | some assigned => exact .some (.here assigned)
  | @within _ _ _ chain wider scope padded inductionHypothesis =>
      unfold assign?
      split
      · exact .some (.within _ padded)
      · generalize chain.assign? name value = assigned at inductionHypothesis
        generalize wider.assign? name value = widerAssigned at inductionHypothesis
        cases inductionHypothesis with
        | none => exact .none
        | some still => exact .some (.within scope still)

/-- An empty scope stays empty as long as nothing is declared in it. -/
theorem keepsRelation_padded
    (names : List String) :
    KeepsRelation names [] Padded where
  get? padded name _ :=
    padded.get?_eq name
  assign? padded name _ value :=
    padded.assign?_rel name value
  define padded name _ value := by
    cases padded with
    | within scope padded => exact .within (scope.insert name value) padded
  declare _ _ isDeclared := by
    cases isDeclared
  enter padded :=
    .within ∅ padded
  leave padded := by
    cases padded with
    | within _ padded => exact padded

end Chain

namespace Stmt

variable {policy : Policy} {depth : Nat}

/-- A block that declares nothing runs as its statements do without it. -/
theorem exec_block_of_openNames_eq_nil
    {body : List Stmt}
    (undeclaring : body.flatMap openNames = [])
    (world : World depth) :
    (Stmt.block body).exec policy world = execAll policy body world := by
  have entered :
      world.Pairs Chain.Padded 0 { chain := world.chain.enter, lines := world.lines } :=
    ⟨.here world.chain, rfl⟩
  have alike :=
    (Chain.keepsRelation_padded (namesAll body)).execAll policy body (List.Subset.refl _)
      (fun _ => List.subset_nil.mpr undeclaring) entered
  simp only [exec, World.inBlock]
  generalize execAll policy body world = ending at alike
  generalize
    execAll policy body { chain := world.chain.enter, lines := world.lines } = inner at alike
  obtain ⟨outcome, chain, lines⟩ := ending
  obtain ⟨innerOutcome, innerChain, innerLines⟩ := inner
  obtain ⟨sameOutcome, padded, sameLines⟩ := alike
  cases sameOutcome
  cases sameLines
  cases padded with
  | here chain => rfl

/-- One statement runs as a list that holds nothing else. -/
theorem execAll_singleton
    (statement : Stmt)
    (world : World depth) :
    execAll policy [statement] world = statement.exec policy world := by
  simp only [execAll]
  generalize statement.exec policy world = ending
  obtain ⟨outcome, after⟩ := ending
  cases outcome <;> rfl

/-- Statements behind others run when these end normally. -/
theorem execAll_append
    (first second : List Stmt)
    (world : World depth) :
    execAll policy (first ++ second) world =
      match execAll policy first world with
      | (.normal, after) => execAll policy second after
      | (.left, after) => (.left, after)
      | (.failed error, after) => (.failed error, after)
      | (.exhausted, after) => (.exhausted, after) := by
  induction first generalizing world with
  | nil =>
      simp only [List.nil_append, execAll]
  | cons statement rest inductionHypothesis =>
      simp only [List.cons_append, execAll]
      generalize statement.exec policy world = ending
      obtain ⟨outcome, after⟩ := ending
      cases outcome with
      | normal => exact inductionHypothesis after
      | _ => rfl

/-- The value of a step is not written: echo is off, there is no step, or it is an assignment. -/
def IsQuiet
    (policy : Policy)
    (step : Option Expr) :
    Prop :=
  policy.echo = false ∨ step = none ∨ ∃ name value, step = some (.assign name value)

/-- The value of an expression statement that is quiet is not written. -/
theorem IsQuiet.exec_expression
    {step : Expr}
    (quiet : IsQuiet policy (some step))
    (world : World depth) :
    (Stmt.expression step).exec policy world =
      world.withValue step fun _ after => (.normal, after) := by
  have unwritten : (policy.echo && !step.isAssignment) = false := by
    rcases quiet with silent | missing | ⟨name, value, assigns⟩
    · simp [silent]
    · cases missing
    · cases assigns
      simp [Expr.isAssignment]
  simp only [exec, unwritten, Bool.false_eq_true, ↓reduceIte]

/-- The block in a counting loop runs the body and then, if it ended normally, the step. -/
theorem exec_round
    {body : Stmt}
    (undeclaring : body.openNames = [])
    {step : Option Expr}
    (quiet : IsQuiet policy step)
    (world : World depth) :
    (Stmt.block (body :: step.toList.map .expression)).exec policy world =
      match body.exec policy world with
      | (.normal, after) => after.afterStep step fun last => (.normal, last)
      | (.left, after) => (.left, after)
      | (.failed error, after) => (.failed error, after)
      | (.exhausted, after) => (.exhausted, after) := by
  have together : (body :: step.toList.map Stmt.expression).flatMap openNames = [] := by
    cases step <;> simp [undeclaring, openNames]
  rw [exec_block_of_openNames_eq_nil together, execAll]
  generalize body.exec policy world = ending
  obtain ⟨outcome, after⟩ := ending
  cases outcome with
  | normal =>
      cases step with
      | none => rfl
      | some expr =>
          exact (execAll_singleton (.expression expr) after).trans (quiet.exec_expression after)
  | _ => rfl

/-- The rounds of the loop that is read are the rounds of the counting loop. -/
theorem repeatWhile_eq_countWhile
    {body : Stmt}
    (undeclaring : body.openNames = [])
    (condition : Option Expr)
    {step : Option Expr}
    (quiet : IsQuiet policy step)
    (rounds : Nat)
    (world : World depth) :
    World.repeatWhile (condition.getD (.literal (.bool true)))
        ((Stmt.block (body :: step.toList.map .expression)).exec policy) rounds world =
      World.countWhile condition step (body.exec policy) rounds world := by
  induction rounds generalizing world with
  | zero =>
      rfl
  | succ rounds inductionHypothesis =>
      rw [World.repeatWhile_succ, World.countWhile, ← World.withValue_getD]
      congr 1
      funext value tested
      rw [exec_round undeclaring quiet tested]
      split
      · generalize body.exec policy tested = ending
        obtain ⟨outcome, after⟩ := ending
        cases outcome with
        | normal =>
            rw [← funext inductionHypothesis]
            exact (after.afterStep_eq step _).symm
        | _ => rfl
      · rfl

/-- A counting loop whose body declares in blocks only runs as it does directly. -/
theorem exec_forLoop
    {body : Stmt}
    (undeclaring : body.openNames = [])
    (initial : Option Stmt)
    (condition : Option Expr)
    {step : Option Expr}
    (quiet : IsQuiet policy step)
    (world : World depth) :
    (forLoop initial condition step body).exec policy world =
      execCounting policy initial condition step body world := by
  unfold forLoop execCounting
  rw [exec]
  congr 1
  funext entered
  rw [execAll_append]
  generalize execAll policy initial.toList entered = ending
  obtain ⟨outcome, begun⟩ := ending
  cases outcome with
  | normal =>
      refine (execAll_singleton _ begun).trans ?_
      rw [exec]
      exact repeatWhile_eq_countWhile undeclaring condition quiet policy.rounds begun
  | _ => rfl

end Stmt

/-! ## Counting loops that have been read -/

namespace Grammar

/-- The tokens of a counting loop, with what its four parts stand for. -/
inductive CountingPhrase :
    List Token → Option Stmt → Option Expr → Option Expr → Stmt → Prop where
  | intro
      {ending : Ending}
      {word opening semicolon closing : Token}
      {initial condition step body : List Token}
      {initialStmt : Option Stmt}
      {conditionExpr stepExpr : Option Expr}
      {bodyStmt : Stmt}
      (begins : word.kind = .keyword .forWord)
      (opens : opening.kind = .mark .leftParen)
      (first : InitialPhrase initial initialStmt [])
      (second : OptionalPhrase condition conditionExpr [])
      (separates : semicolon.kind = .mark .semicolon)
      (third : OptionalPhrase step stepExpr [])
      (closes : closing.kind = .mark .rightParen)
      (repeated : StatementPhrase true ending body bodyStmt []) :
      CountingPhrase
        (word :: opening :: (initial ++ (condition ++ semicolon :: (step ++ closing :: body))))
        initialStmt conditionExpr stepExpr bodyStmt

namespace CountingPhrase

variable {tokens : List Token} {initial : Option Stmt} {condition step : Option Expr} {body : Stmt}

/-- Wherever a statement may stand, a counting loop is read as its translation. -/
theorem exists_reads
    (phrase : CountingPhrase tokens initial condition step body) :
    ∃ ending,
      ∀ inLoop,
        StatementReads inLoop ending tokens (.forLoop initial condition step body) [] := by
  cases phrase with
  | intro begins opens first second separates third closes repeated =>
      exact ⟨_, fun _ =>
        (StatementPhrase.forLoop begins opens first second separates third closes repeated).reads⟩

/-- The body of a counting loop declares in its own blocks only. -/
theorem openNames_body
    (phrase : CountingPhrase tokens initial condition step body) :
    body.openNames = [] := by
  cases phrase with
  | intro _ _ _ _ _ _ _ repeated =>
      exact body.openNames_eq_nil repeated.declaresInBlocks repeated.not_isDeclaration

end CountingPhrase

/-- A statement that begins with the word of counting loops is one. -/
theorem StatementPhrase.exists_counting
    {inLoop : Bool}
    {ending : Ending}
    {tokens : List Token}
    {statement : Stmt}
    {errors : List GrammarError}
    (phrase : StatementPhrase inLoop ending tokens statement errors)
    (noErrors : errors = [])
    (begins : ∀ first ∈ tokens.head?, first.kind = .keyword .forWord) :
    ∃ initial condition step body,
      CountingPhrase tokens initial condition step body ∧
        statement = .forLoop initial condition step body := by
  have other {first : Token} (isFirst : tokens.head? = some first) {kind : Kind}
      (isOther : first.kind = kind) (differs : kind ≠ .keyword .forWord) : False :=
    differs (isOther.symm.trans (begins first isFirst))
  cases phrase with
  | block opens => exact (other rfl opens nofun).elim
  | leave opens => exact (other rfl opens nofun).elim
  | print opens => exact (other rfl opens nofun).elim
  | ifThen opens => exact (other rfl opens nofun).elim
  | ifElse opens => exact (other rfl opens nofun).elim
  | whileLoop opens => exact (other rfl opens nofun).elim
  | expression value =>
      obtain ⟨first, rest, rfl, beginsExpr⟩ := value.exists_first
      rw [begins first rfl] at beginsExpr
      cases beginsExpr
  | forLoop isFor opens first second separates third closes repeated =>
      simp only [List.append_eq_nil_iff] at noErrors
      obtain ⟨rfl, rfl, rfl, rfl⟩ := noErrors
      exact ⟨_, _, _, _, .intro isFor opens first second separates third closes repeated, rfl⟩

/-- A body of one statement that is no declaration is that statement. -/
theorem BodyPhrase.exists_statement
    {inLoop : Bool}
    {tokens : List Token}
    {statement : Stmt}
    {errors : List GrammarError}
    (phrase : BodyPhrase inLoop tokens [statement] errors)
    (other : statement.isDeclaration = false) :
    ∃ ending, StatementPhrase inLoop ending tokens statement errors := by
  cases phrase with
  | declare declares others =>
      cases declares <;> cases other
  | statement first others =>
      cases others
      rw [List.append_nil, List.append_nil]
      exact ⟨_, first⟩

end Grammar

open Grammar

/--
Counting loops run directly.  A program that is read without an error consists of
phrases.  A statement phrase that begins with the word of counting loops is made of
the four parts of one, wherever it stands, and is read as the same statement inside
and outside of loops.  Executed anywhere, this statement writes the same lines,
leaves the same scopes and ends in the same way as the counting loop of its four
parts, unless the value of its step would be written.
-/
theorem Program.counting_loops_run_directly :
    (∀ {tokens : List Token} {last : Token},
        tokens.getLast? = some last →
        last.kind = .endOfInput →
        (Program.ofTokens tokens).errors = [] →
        BodyPhrase false (beforeEnd tokens) (Program.ofTokens tokens).statements []) ∧
      ∀ {inLoop : Bool} {ending : Ending} {tokens : List Token} {statement : Stmt},
        StatementPhrase inLoop ending tokens statement [] →
        (∀ first ∈ tokens.head?, first.kind = .keyword .forWord) →
        ∃ initial condition step body,
          CountingPhrase tokens initial condition step body ∧
            (∃ ending, ∀ inLoop, StatementReads inLoop ending tokens statement []) ∧
              ∀ policy : Policy, Stmt.IsQuiet policy step →
                ∀ {depth : Nat} (world : World depth),
                  statement.exec policy world =
                    Stmt.execCounting policy initial condition step body world := by
  refine ⟨fun isLast ends noErrors => bodyPhrase_of_errors_eq_nil isLast ends noErrors, ?_⟩
  intro inLoop ending tokens statement phrase begins
  obtain ⟨initial, condition, step, body, counting, rfl⟩ := phrase.exists_counting rfl begins
  refine ⟨initial, condition, step, body, counting, counting.exists_reads, ?_⟩
  intro policy quiet depth world
  exact Stmt.exec_forLoop counting.openNames_body initial condition quiet world

/-- The tokens of `for (var x = true; x; x = !x) { print x; }`. -/
def flagLoopTokens : List Token :=
  let bare (kind : Kind) : Token := { kind, lexeme := "", literal := .nil, line := 1 }
  [bare (.keyword .forWord), bare (.mark .leftParen), bare (.keyword .varWord), nameX,
    bare (.mark .equal), bare (.keyword .trueWord), bare (.mark .semicolon), nameX,
    bare (.mark .semicolon), nameX, bare (.mark .equal), bare (.mark .bang), nameX,
    bare (.mark .rightParen), bare (.mark .leftBrace), bare (.keyword .printWord), nameX,
    bare (.mark .semicolon), bare (.mark .rightBrace), bare .endOfInput]

/-- The counting loop that is read off these tokens. -/
def flagLoop : Stmt :=
  .forLoop (some (.declare nameX (some (.literal (.bool true))))) (some (.lookup nameX))
    (some (.assign nameX
      (.unary { kind := .mark .bang, lexeme := "", literal := .nil, line := 1 } .not
        (.lookup nameX))))
    (.block [.print (.lookup nameX)])

/-- A loop over a flag is read, runs once and writes its flag, and runs as it does directly. -/
theorem Program.counting_loops_run_directly_flagLoop :
    Program.ofTokens flagLoopTokens = { statements := [flagLoop], errors := [] } ∧
      (flagLoop.exec { rounds := 2 } { chain := .globals ∅, lines := [] }).2.lines =
          [.printed "true"] ∧
        ∃ initial condition step body,
          CountingPhrase (beforeEnd flagLoopTokens) initial condition step body ∧
            ∀ policy : Policy, Stmt.IsQuiet policy step →
              ∀ {depth : Nat} (world : World depth),
                flagLoop.exec policy world =
                  Stmt.execCounting policy initial condition step body world := by
  have accepted : Program.ofTokens flagLoopTokens = { statements := [flagLoop], errors := [] } :=
    rfl
  obtain ⟨consists, runsDirectly⟩ := Program.counting_loops_run_directly
  have program := consists rfl rfl (congrArg Program.errors accepted)
  rw [accepted] at program
  obtain ⟨ending, phrase⟩ := program.exists_statement rfl
  obtain ⟨initial, condition, step, body, counting, _, runs⟩ := runsDirectly phrase (by decide)
  exact ⟨accepted, by decide +kernel, initial, condition, step, body, counting, runs⟩

end BlockScript
