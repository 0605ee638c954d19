import Mathlib.Data.List.TakeWhile
import BlockScript.Proofs.Execution.Rounds
import BlockScript.Proofs.Scoping.Resolution
import BlockScript.Proofs.Reading.Language

namespace BlockScript

/-!
# Lexical scope

The names that a scope binds while a block runs are those that the block has
declared before the statement that is running: statements of a block run in
order, a declaration is never the whole branch of a conditional or the whole
body of a loop, and a scope is dropped however its block ends.  So the chain of
scopes always fits the layout of the text, and the way outward from a use of a
name ends at the scope that the text names.
-/

namespace Chain

/-- The value found by walking outward is the one in the scope where the way ends. -/
theorem get?_eq_getAt?
    (name : String)
    {depth : Nat}
    (chain : Chain depth) :
    chain.get? name = chain.getAt? name (chain.scopesOut name) := by
  induction chain with
  | globals scope =>
      rfl
  | nested scope enclosing inductionHypothesis =>
      cases bound : scope[name]? with
      | some value =>
          have binds : scope.contains name = true := by
            rw [Std.TreeMap.contains_eq_isSome_getElem?, bound]
            rfl
          simp [get?, scopesOut, binds, getAt?, bound]
      | none =>
          have unbound : scope.contains name = false := by
            rw [Std.TreeMap.contains_eq_isSome_getElem?, bound]
            rfl
          simp [get?, scopesOut, unbound, getAt?, bound, inductionHypothesis]

/-- An assignment that walks outward changes the scope where the way ends. -/
theorem assign?_eq_assignAt?
    (name : String)
    (value : Value)
    {depth : Nat}
    (chain : Chain depth) :
    chain.assign? name value = chain.assignAt? name value (chain.scopesOut name) := by
  induction chain with
  | globals scope =>
      rfl
  | nested scope enclosing inductionHypothesis =>
      cases binds : scope.contains name with
      | true => simp [assign?, scopesOut, binds, assignAt?]
      | false => simp [assign?, scopesOut, binds, assignAt?, inductionHypothesis]

/-- Each scope around the globals binds exactly the names that its block has declared. -/
def Fits : Layout → {depth : Nat} → Chain depth → Prop
  | [], _, .globals _ => True
  | names :: outer, _, .nested scope enclosing =>
      (∀ name, scope.contains name = names.contains name) ∧ enclosing.Fits outer
  | _, _, _ => False

variable {layout : Layout} {depth : Nat}

/-- In a chain that fits, the way outward ends where the text says. -/
theorem Fits.scopesOut_eq
    {chain : Chain depth}
    (fits : chain.Fits layout)
    (name : String) :
    chain.scopesOut name = layout.scopesOut name := by
  induction chain generalizing layout with
  | globals scope =>
      cases layout with
      | nil => rfl
      | cons names outer => exact fits.elim
  | nested scope enclosing inductionHypothesis =>
      cases layout with
      | nil => exact fits.elim
      | cons names outer =>
          obtain ⟨binds, around⟩ := fits
          have goesOn := inductionHypothesis around
          simp only [Chain.scopesOut, Layout.scopesOut, List.findIdx_cons, binds] at goesOn ⊢
          cases names.contains name with
          | true => rfl
          | false =>
              simp only [Bool.false_eq_true, ↓reduceIte, cond_false]
              rw [goesOn]

/-- A declaration binds its name in the innermost scope. -/
theorem Fits.define
    {chain : Chain depth}
    (fits : chain.Fits layout)
    (name : String)
    (value : Value) :
    (chain.define name value).Fits (layout.declare name) := by
  cases chain with
  | globals scope =>
      cases layout with
      | nil => trivial
      | cons names outer => exact fits.elim
  | nested scope enclosing =>
      cases layout with
      | nil => exact fits.elim
      | cons names outer =>
          obtain ⟨binds, around⟩ := fits
          refine ⟨fun other => ?_, around⟩
          have sameName : (compare name other == .eq) = (other == name) := by
            rw [Bool.eq_iff_iff, beq_iff_eq, beq_iff_eq, Std.LawfulEqCmp.compare_eq_iff_eq]
            exact eq_comm
          rw [Std.TreeMap.contains_insert, binds, List.contains_cons, sameName]

/-- An assignment binds no further name. -/
theorem Fits.assign
    {chain assigned : Chain depth}
    (fits : chain.Fits layout)
    {name : String}
    {value : Value}
    (assigns : chain.assign? name value = some assigned) :
    assigned.Fits layout := by
  induction chain generalizing layout with
  | globals scope =>
      cases layout with
      | cons names outer => exact fits.elim
      | nil =>
          unfold assign? at assigns
          split at assigns
          · cases assigns
            trivial
          · cases assigns
  | nested scope enclosing inductionHypothesis =>
      cases layout with
      | nil => exact fits.elim
      | cons names outer =>
          obtain ⟨binds, around⟩ := fits
          unfold assign? at assigns
          split at assigns
          · rename_i bound
            cases assigns
            refine ⟨fun other => ?_, around⟩
            rw [Std.TreeMap.contains_insert, ← binds]
            by_cases same : name = other
            · simp [← same, bound]
            · simp [same]
          · obtain ⟨changed, inside, rfl⟩ := Option.map_eq_some_iff.mp assigns
            exact ⟨binds, inductionHypothesis around inside⟩

/-- A block begins with a scope that binds nothing. -/
theorem Fits.enter
    {chain : Chain depth}
    (fits : chain.Fits layout) :
    chain.enter.Fits ([] :: layout) :=
  ⟨fun name => by simp, fits⟩

/-- Behind a block the scopes around it are left. -/
theorem Fits.leave
    {chain : Chain (depth + 1)}
    {names : List String}
    (fits : chain.Fits (names :: layout)) :
    chain.leave.Fits layout := by
  cases chain with
  | nested scope enclosing => exact fits.2

end Chain

/-! ## Recording the uses of names changes nothing -/

/-- How something ended, without the record of the uses of names. -/
def untracedEnding
    {α : Type}
    {depth : Nat}
    (ending : α × TracedWorld depth) :
    α × World depth :=
  (ending.1, ending.2.untraced)

/-- How an evaluation ended, beside the lines written before it. -/
def Evaluation.ending
    {depth : Nat}
    (evaluation : Evaluation depth)
    (lines : List Line) :
    Except RuntimeError Value × World depth :=
  (evaluation.result, { chain := evaluation.chain, lines })

section Untraced

variable {depth : Nat}

/-- Going on behind an evaluation whose record is dropped. -/
theorem untracedEnding_andThen
    {evaluated : Except RuntimeError Value × TracedWorld depth}
    {evaluation : Evaluation depth}
    {lines : List Line}
    (same : untracedEnding evaluated = evaluation.ending lines)
    {tracedNext : Value → TracedWorld depth → Except RuntimeError Value × TracedWorld depth}
    {next : Value → Chain depth → Evaluation depth}
    (goesOn :
      ∀ value (after : TracedWorld depth), after.lines = lines →
        untracedEnding (tracedNext value after) = (next value after.chain).ending lines) :
    untracedEnding (ResolvedExpr.andThen evaluated tracedNext) =
      (evaluation.andThen next).ending lines := by
  obtain ⟨result, chain, written, accesses⟩ := evaluated
  obtain ⟨result', chain'⟩ := evaluation
  simp only [untracedEnding, TracedWorld.untraced, Evaluation.ending, Prod.mk.injEq,
    World.mk.injEq] at same
  obtain ⟨rfl, rfl, rfl⟩ := same
  cases result with
  | error error => rfl
  | ok value => exact goesOn value _ rfl

/-- The fault of an operator is blamed on the same token. -/
theorem untracedEnding_ofOperation
    (token : Token)
    (result : Except RuntimeFault Value)
    (world : TracedWorld depth) :
    untracedEnding (ResolvedExpr.ofOperation token result world) =
      (Evaluation.ofOperation token result world.chain).ending world.lines := by
  cases result <;> rfl

/-- A resolved expression that is evaluated by walking is evaluated as it stands. -/
theorem Expr.untracedEnding_eval
    (layout : Layout)
    (expr : Expr)
    (world : TracedWorld depth) :
    untracedEnding ((expr.resolve layout).eval .walking world) =
      (expr.eval world.chain).ending world.lines := by
  induction expr generalizing world with
  | assign name value inductionHypothesis =>
      refine untracedEnding_andThen (inductionHypothesis world) fun assigned after written => ?_
      rw [← written]
      simp only [TracedWorld.assignTo, Finding.walking, Evaluation.assignTo]
      cases after.chain.assign? name.lexeme assigned <;> rfl
  | binary token operator left right leftHypothesis rightHypothesis =>
      refine untracedEnding_andThen (leftHypothesis world) fun leftValue after written => ?_
      rw [← written]
      refine untracedEnding_andThen (rightHypothesis after) fun rightValue last written => ?_
      rw [← written]
      exact untracedEnding_ofOperation token _ last
  | group inner inductionHypothesis =>
      exact inductionHypothesis world
  | literal value =>
      rfl
  | conditional condition thenValue elseValue conditionHypothesis thenHypothesis elseHypothesis =>
      refine untracedEnding_andThen (conditionHypothesis world) fun tested after written => ?_
      rw [← written]
      by_cases holds : tested.isTruthy = true
      · rw [if_pos holds, if_pos holds]
        exact thenHypothesis after
      · rw [if_neg holds, if_neg holds]
        exact elseHypothesis after
  | unary token operator operand inductionHypothesis =>
      refine untracedEnding_andThen (inductionHypothesis world) fun operandValue after written => ?_
      rw [← written]
      exact untracedEnding_ofOperation token _ after
  | lookup name =>
      simp only [Expr.resolve, ResolvedExpr.eval, TracedWorld.lookUp, Finding.walking, Expr.eval,
        Evaluation.lookUp]
      cases found : world.chain.get? name.lexeme <;> rfl

/-- A block is run in a scope of its own with and without the record. -/
theorem untracedEnding_inBlock
    (world : TracedWorld depth)
    {tracedRun : TracedWorld (depth + 1) → Outcome × TracedWorld (depth + 1)}
    {run : World (depth + 1) → Outcome × World (depth + 1)}
    (runs : ∀ inner, untracedEnding (tracedRun inner) = run inner.untraced) :
    untracedEnding (world.inBlock tracedRun) = world.untraced.inBlock run := by
  have begins := runs { world with chain := world.chain.enter }
  simp only [World.inBlock, TracedWorld.untraced] at begins ⊢
  rw [← begins]
  rfl

/-- Going on with the value of an expression with and without the record. -/
theorem untracedEnding_withValue
    (layout : Layout)
    (world : TracedWorld depth)
    (expr : Expr)
    {tracedNext : Value → TracedWorld depth → Outcome × TracedWorld depth}
    {next : Value → World depth → Outcome × World depth}
    (goesOn : ∀ value after, untracedEnding (tracedNext value after) = next value after.untraced) :
    untracedEnding (world.withValue .walking (expr.resolve layout) tracedNext) =
      world.untraced.withValue expr next := by
  have evaluated := expr.untracedEnding_eval layout world
  have sameChain : world.untraced.chain = world.chain := rfl
  simp only [TracedWorld.withValue, World.withValue, sameChain]
  generalize (expr.resolve layout).eval .walking world = traced at evaluated ⊢
  generalize expr.eval world.chain = evaluation at evaluated ⊢
  obtain ⟨result, after⟩ := traced
  obtain ⟨result', chain⟩ := evaluation
  simp only [untracedEnding, Evaluation.ending, Prod.mk.injEq] at evaluated
  obtain ⟨rfl, sameWorld⟩ := evaluated
  have afterWorld : { world.untraced with chain } = after.untraced := sameWorld.symm
  cases result with
  | error error => simp only [untracedEnding, afterWorld]
  | ok value => simp only [goesOn, afterWorld]

/-- A loop runs alike with and without the record. -/
theorem untracedEnding_repeatWhile
    (layout : Layout)
    (condition : Expr)
    {tracedBody : TracedWorld depth → Outcome × TracedWorld depth}
    {body : World depth → Outcome × World depth}
    (runs : ∀ world, untracedEnding (tracedBody world) = body world.untraced)
    (rounds : Nat)
    (world : TracedWorld depth) :
    untracedEnding
        (TracedWorld.repeatWhile .walking (condition.resolve layout) tracedBody rounds world) =
      World.repeatWhile condition body rounds world.untraced := by
  induction rounds generalizing world with
  | zero =>
      rfl
  | succ rounds inductionHypothesis =>
      rw [World.repeatWhile_succ, TracedWorld.repeatWhile]
      refine untracedEnding_withValue layout world condition fun value tested => ?_
      by_cases holds : value.isTruthy = true
      · rw [if_pos holds, if_pos holds, ← runs tested]
        generalize tracedBody tested = ending
        obtain ⟨outcome, after⟩ := ending
        cases outcome with
        | normal => exact inductionHypothesis after
        | _ => rfl
      · rw [if_neg holds, if_neg holds]
        rfl

/-- Resolving an expression does not make it an assignment. -/
theorem Expr.isAssignment_resolve
    (layout : Layout)
    (expr : Expr) :
    (expr.resolve layout).isAssignment = expr.isAssignment := by
  cases expr <;> rfl

end Untraced

namespace Stmt

mutual

/-- A resolved statement that is executed by walking is executed as it stands. -/
theorem untracedEnding_exec
    (policy : Policy)
    (layout : Layout) :
    (statement : Stmt) →
    {depth : Nat} →
    (world : TracedWorld depth) →
    untracedEnding ((statement.resolve layout).exec .walking policy world) =
      statement.exec policy world.untraced
  | .block body, _, world => by
      simp only [resolve, ResolvedStmt.exec, exec]
      exact untracedEnding_inBlock world fun inner =>
        untracedEnding_execAll policy ([] :: layout) body inner
  | .leave word, _, world => by
      simp only [resolve, ResolvedStmt.exec, exec]
      rfl
  | .expression value, _, world => by
      simp only [resolve, ResolvedStmt.exec, exec]
      refine untracedEnding_withValue layout world value fun result after => ?_
      rw [Expr.isAssignment_resolve]
      by_cases echoes : (policy.echo && !value.isAssignment) = true
      · rw [if_pos echoes, if_pos echoes]
        rfl
      · rw [if_neg echoes, if_neg echoes]
        rfl
  | .ifThen condition thenBranch, _, world => by
      simp only [resolve, ResolvedStmt.exec, exec]
      refine untracedEnding_withValue layout world condition fun result after => ?_
      by_cases holds : result.isTruthy = true
      · rw [if_pos holds, if_pos holds]
        exact untracedEnding_exec policy layout thenBranch after
      · rw [if_neg holds, if_neg holds]
        rfl
  | .ifElse condition thenBranch elseBranch, _, world => by
      simp only [resolve, ResolvedStmt.exec, exec]
      refine untracedEnding_withValue layout world condition fun result after => ?_
      by_cases holds : result.isTruthy = true
      · rw [if_pos holds, if_pos holds]
        exact untracedEnding_exec policy layout thenBranch after
      · rw [if_neg holds, if_neg holds]
        exact untracedEnding_exec policy layout elseBranch after
  | .print value, _, world => by
      simp only [resolve, ResolvedStmt.exec, exec]
      exact untracedEnding_withValue layout world value fun result after => rfl
  | .declare name none, _, world => by
      simp only [resolve, Option.map_none, ResolvedStmt.exec, exec]
      rfl
  | .declare name (some initial), _, world => by
      simp only [resolve, Option.map_some, ResolvedStmt.exec, exec]
      exact untracedEnding_withValue layout world initial fun result after => rfl
  | .loop condition body, _, world => by
      simp only [resolve, ResolvedStmt.exec, exec]
      exact untracedEnding_repeatWhile layout condition
        (fun inner => untracedEnding_exec policy layout body inner) policy.rounds world

/-- Resolved statements that are executed by walking are executed as they stand. -/
theorem untracedEnding_execAll
    (policy : Policy)
    (layout : Layout) :
    (statements : List Stmt) →
    {depth : Nat} →
    (world : TracedWorld depth) →
    untracedEnding (ResolvedStmt.execAll .walking policy (resolveAll layout statements) world) =
      execAll policy statements world.untraced
  | [], _, world => by
      simp only [resolveAll, ResolvedStmt.execAll, execAll]
      rfl
  | first :: rest, _, world => by
      simp only [resolveAll, ResolvedStmt.execAll, execAll]
      rw [← untracedEnding_exec policy layout first world]
      generalize (first.resolve layout).exec .walking policy world = ending
      obtain ⟨outcome, after⟩ := ending
      cases outcome with
      | normal => exact untracedEnding_execAll policy (first.layoutBehind layout) rest after
      | _ => rfl

end

/-- A resolved program that is executed by walking is executed as it stands. -/
theorem untracedEnding_execProgram
    (policy : Policy)
    (layout : Layout)
    (statements : List Stmt)
    (world : TracedWorld 0) :
    untracedEnding
        (ResolvedStmt.execProgram .walking policy (resolveAll layout statements) world) =
      execProgram policy statements world.untraced := by
  induction statements generalizing layout world with
  | nil =>
      simp only [resolveAll, ResolvedStmt.execProgram, execProgram]
      rfl
  | cons first rest inductionHypothesis =>
      simp only [resolveAll, ResolvedStmt.execProgram, execProgram]
      rw [← untracedEnding_exec policy layout first world]
      generalize (first.resolve layout).exec .walking policy world = ending
      obtain ⟨outcome, after⟩ := ending
      cases outcome with
      | normal => exact inductionHypothesis (first.layoutBehind layout) after
      | left => exact inductionHypothesis (first.layoutBehind layout) after
      | _ => rfl

end Stmt

/-! ## The scopes of a running program fit the text -/

namespace TracedWorld

variable {layout : Layout} {depth : Nat}

/-- The scopes fit the text at the present place, and every use so far was lexical. -/
structure IsLexical
    (layout : Layout)
    (world : TracedWorld depth) :
    Prop where
  fits : world.chain.Fits layout
  accesses : ∀ access ∈ world.accesses, access.IsLexical

/-- A use of a name is lexical when the scopes fit. -/
theorem IsLexical.trace
    {world : TracedWorld depth}
    (lexical : world.IsLexical layout)
    (name : Token) :
    (world.trace name (layout.scopesOut name.lexeme)).IsLexical layout where
  fits :=
    lexical.fits
  accesses := by
    intro access used
    rcases List.mem_cons.mp used with rfl | before
    · exact lexical.fits.scopesOut_eq name.lexeme
    · exact lexical.accesses access before

/-- A declaration changes the layout as it changes the scopes. -/
theorem IsLexical.define
    {world : TracedWorld depth}
    (lexical : world.IsLexical layout)
    (name : String)
    (value : Value) :
    (world.define name value).IsLexical (layout.declare name) :=
  ⟨lexical.fits.define name value, lexical.accesses⟩

/-- The value of a name is the one in the scope that the text names. -/
theorem IsLexical.lookUp
    {world : TracedWorld depth}
    (lexical : world.IsLexical layout)
    (name : Token) :
    world.lookUp .direct name (layout.scopesOut name.lexeme) =
        world.lookUp .walking name (layout.scopesOut name.lexeme) ∧
      (world.lookUp .walking name (layout.scopesOut name.lexeme)).2.IsLexical layout := by
  have sameValue :
      world.chain.getAt? name.lexeme (layout.scopesOut name.lexeme) =
        world.chain.get? name.lexeme := by
    rw [Chain.get?_eq_getAt?, lexical.fits.scopesOut_eq]
  simp only [TracedWorld.lookUp, Finding.direct, Finding.walking, sameValue, true_and]
  split <;> exact lexical.trace name

/-- An assignment changes the scope that the text names. -/
theorem IsLexical.assignTo
    {world : TracedWorld depth}
    (lexical : world.IsLexical layout)
    (name : Token)
    (value : Value) :
    world.assignTo .direct name (layout.scopesOut name.lexeme) value =
        world.assignTo .walking name (layout.scopesOut name.lexeme) value ∧
      (world.assignTo .walking name (layout.scopesOut name.lexeme) value).2.IsLexical layout := by
  have sameScope :
      world.chain.assignAt? name.lexeme value (layout.scopesOut name.lexeme) =
        world.chain.assign? name.lexeme value := by
    rw [Chain.assign?_eq_assignAt?, lexical.fits.scopesOut_eq]
  simp only [TracedWorld.assignTo, Finding.direct, Finding.walking, sameScope, true_and]
  split
  · rename_i assigned assigns
    exact ⟨lexical.fits.assign assigns, (lexical.trace name).accesses⟩
  · exact lexical.trace name

end TracedWorld

section Agreement

variable {layout : Layout} {depth : Nat}

/-- Going on behind an evaluation keeps both ways of finding names together. -/
theorem andThen_agree
    {directed walked : Except RuntimeError Value × TracedWorld depth}
    (agree : directed = walked ∧ walked.2.IsLexical layout)
    {directNext walkNext :
      Value → TracedWorld depth → Except RuntimeError Value × TracedWorld depth}
    (goesOn :
      ∀ value after, after.IsLexical layout →
        directNext value after = walkNext value after ∧
          (walkNext value after).2.IsLexical layout) :
    ResolvedExpr.andThen directed directNext = ResolvedExpr.andThen walked walkNext ∧
      (ResolvedExpr.andThen walked walkNext).2.IsLexical layout := by
  obtain ⟨rfl, lexical⟩ := agree
  obtain ⟨result, after⟩ := directed
  cases result with
  | error error => exact ⟨rfl, lexical⟩
  | ok value => exact goesOn value after lexical

/-- Applying an operator finds no name. -/
theorem ofOperation_agree
    (token : Token)
    (result : Except RuntimeFault Value)
    {world : TracedWorld depth}
    (lexical : world.IsLexical layout) :
    ResolvedExpr.ofOperation token result world = ResolvedExpr.ofOperation token result world ∧
      (ResolvedExpr.ofOperation token result world).2.IsLexical layout := by
  cases result <;> exact ⟨rfl, lexical⟩

/-- While the scopes fit, an expression finds its names alike in both ways. -/
theorem Expr.eval_agree
    (expr : Expr)
    {world : TracedWorld depth}
    (lexical : world.IsLexical layout) :
    (expr.resolve layout).eval .direct world = (expr.resolve layout).eval .walking world ∧
      ((expr.resolve layout).eval .walking world).2.IsLexical layout := by
  induction expr generalizing world with
  | assign name value inductionHypothesis =>
      exact andThen_agree (inductionHypothesis lexical) fun assigned after lexical =>
        lexical.assignTo name assigned
  | binary token operator left right leftHypothesis rightHypothesis =>
      refine andThen_agree (leftHypothesis lexical) fun leftValue after lexical => ?_
      exact andThen_agree (rightHypothesis lexical) fun rightValue last lexical =>
        ofOperation_agree token _ lexical
  | group inner inductionHypothesis =>
      exact inductionHypothesis lexical
  | literal value =>
      exact ⟨rfl, lexical⟩
  | conditional condition thenValue elseValue conditionHypothesis thenHypothesis elseHypothesis =>
      refine andThen_agree (conditionHypothesis lexical) fun tested after lexical => ?_
      by_cases holds : tested.isTruthy = true
      · simp only [if_pos holds]
        exact thenHypothesis lexical
      · simp only [if_neg holds]
        exact elseHypothesis lexical
  | unary token operator operand inductionHypothesis =>
      exact andThen_agree (inductionHypothesis lexical) fun operandValue after lexical =>
        ofOperation_agree token _ lexical
  | lookup name =>
      exact lexical.lookUp name

/-- Going on with the value of an expression keeps both ways together, and what follows. -/
theorem withValue_agree
    (expr : Expr)
    (Follows : Outcome × TracedWorld depth → Prop)
    {world : TracedWorld depth}
    (lexical : world.IsLexical layout)
    {directNext walkNext : Value → TracedWorld depth → Outcome × TracedWorld depth}
    (goesOn :
      ∀ value after, after.IsLexical layout →
        directNext value after = walkNext value after ∧ Follows (walkNext value after))
    (fails : ∀ error after, after.IsLexical layout → Follows (.failed error, after)) :
    world.withValue .direct (expr.resolve layout) directNext =
        world.withValue .walking (expr.resolve layout) walkNext ∧
      Follows (world.withValue .walking (expr.resolve layout) walkNext) := by
  obtain ⟨same, after⟩ := expr.eval_agree lexical
  simp only [TracedWorld.withValue, same]
  generalize (expr.resolve layout).eval .walking world = evaluated at after
  obtain ⟨result, next⟩ := evaluated
  cases result with
  | error error => exact ⟨rfl, fails error next after⟩
  | ok value => exact goesOn value next after

/-- A loop keeps both ways together when its body does. -/
theorem repeatWhile_agree
    (condition : Expr)
    {directBody walkBody : TracedWorld depth → Outcome × TracedWorld depth}
    (runs :
      ∀ world, world.IsLexical layout →
        directBody world = walkBody world ∧ (walkBody world).2.IsLexical layout)
    (rounds : Nat)
    {world : TracedWorld depth}
    (lexical : world.IsLexical layout) :
    TracedWorld.repeatWhile .direct (condition.resolve layout) directBody rounds world =
        TracedWorld.repeatWhile .walking (condition.resolve layout) walkBody rounds world ∧
      (TracedWorld.repeatWhile .walking (condition.resolve layout) walkBody rounds
        world).2.IsLexical layout := by
  induction rounds generalizing world with
  | zero =>
      exact ⟨rfl, lexical⟩
  | succ rounds inductionHypothesis =>
      simp only [TracedWorld.repeatWhile]
      refine withValue_agree condition (fun ending => ending.2.IsLexical layout) lexical
        (fun value tested lexical => ?_) fun error after lexical => lexical
      by_cases holds : value.isTruthy = true
      · obtain ⟨same, after⟩ := runs tested lexical
        simp only [if_pos holds, same]
        generalize walkBody tested = ending at after
        obtain ⟨outcome, next⟩ := ending
        cases outcome with
        | normal => exact inductionHypothesis after
        | _ => exact ⟨rfl, after⟩
      · simp only [if_neg holds]
        exact ⟨trivial, lexical⟩

end Agreement

namespace Stmt

/-- Whether a statement is a declaration. -/
def isDeclaration : Stmt → Bool
  | .declare .. => true
  | _ => false

mutual

/-- Whether no declaration is the whole branch of a conditional or the whole body of a loop. -/
def declaresInBlocks : Stmt → Bool
  | .block body => allDeclareInBlocks body
  | .ifThen _ thenBranch => !thenBranch.isDeclaration && thenBranch.declaresInBlocks
  | .ifElse _ thenBranch elseBranch =>
      !thenBranch.isDeclaration && thenBranch.declaresInBlocks &&
        (!elseBranch.isDeclaration && elseBranch.declaresInBlocks)
  | .loop _ body => !body.isDeclaration && body.declaresInBlocks
  | _ => true

/-- Whether the statements of a block or a program declare in blocks only. -/
def allDeclareInBlocks : List Stmt → Bool
  | [] => true
  | first :: rest => first.declaresInBlocks && allDeclareInBlocks rest

end

variable {layout : Layout}

/-- Only a declaration changes the layout. -/
theorem layoutBehind_of_not_isDeclaration
    {statement : Stmt}
    (other : statement.isDeclaration = false) :
    statement.layoutBehind layout = layout := by
  cases statement with
  | declare name initial => cases other
  | _ => rfl

/-- How a statement of a block ends: a declaration counts once it has ended normally. -/
structure EndsLexically
    {depth : Nat}
    (layout : Layout)
    (statement : Stmt)
    (ending : Outcome × TracedWorld depth) :
    Prop where
  normally : ending.1 = .normal → ending.2.IsLexical (statement.layoutBehind layout)
  otherwise : ending.1 ≠ .normal → ending.2.IsLexical layout

namespace EndsLexically

variable {depth : Nat} {statement : Stmt} {ending : Outcome × TracedWorld depth}

/-- A statement that is no declaration keeps the layout however it ends. -/
theorem of_isLexical
    (other : statement.isDeclaration = false)
    (lexical : ending.2.IsLexical layout) :
    EndsLexically layout statement ending where
  normally _ := by
    rw [layoutBehind_of_not_isDeclaration other]
    exact lexical
  otherwise _ :=
    lexical

/-- A statement that is no declaration keeps the layout however it ends. -/
theorem isLexical
    (ends : EndsLexically layout statement ending)
    (other : statement.isDeclaration = false) :
    ending.2.IsLexical layout := by
  by_cases normal : ending.1 = .normal
  · have lexical := ends.normally normal
    rwa [layoutBehind_of_not_isDeclaration other] at lexical
  · exact ends.otherwise normal

end EndsLexically

/-- A declaration ends lexically once its value is known. -/
theorem endsLexically_declare
    {depth : Nat}
    (name : Token)
    (initial : Option Expr)
    (value : Value)
    {world : TracedWorld depth}
    (lexical : world.IsLexical layout) :
    EndsLexically layout (.declare name initial) (.normal, world.define name.lexeme value) where
  normally _ :=
    lexical.define name.lexeme value
  otherwise abnormal :=
    (abnormal rfl).elim

mutual

/-- A statement keeps both ways of finding names together. -/
theorem exec_agree
    (policy : Policy) :
    (layout : Layout) →
    (statement : Stmt) →
    statement.declaresInBlocks = true →
    {depth : Nat} →
    (world : TracedWorld depth) →
    world.IsLexical layout →
    (statement.resolve layout).exec .direct policy world =
        (statement.resolve layout).exec .walking policy world ∧
      EndsLexically layout statement ((statement.resolve layout).exec .walking policy world)
  | layout, .block body, placed, _, world, lexical => by
      simp only [declaresInBlocks] at placed
      simp only [resolve, ResolvedStmt.exec, TracedWorld.inBlock]
      obtain ⟨same, names, inside⟩ :=
        execAll_agree policy [] layout body placed { world with chain := world.chain.enter }
          ⟨lexical.fits.enter, lexical.accesses⟩
      rw [same]
      exact ⟨rfl, .of_isLexical rfl ⟨inside.fits.leave, inside.accesses⟩⟩
  | layout, .leave word, _, _, world, lexical => by
      simp only [resolve, ResolvedStmt.exec]
      exact ⟨trivial, .of_isLexical rfl lexical⟩
  | layout, .expression value, _, _, world, lexical => by
      simp only [resolve, ResolvedStmt.exec]
      refine withValue_agree value (EndsLexically layout _) lexical (fun result after lexical => ⟨rfl, ?_⟩)
        fun error after lexical => .of_isLexical rfl lexical
      refine .of_isLexical rfl ?_
      split <;> exact ⟨lexical.fits, lexical.accesses⟩
  | layout, .ifThen condition thenBranch, placed, _, world, lexical => by
      simp only [declaresInBlocks, Bool.and_eq_true, Bool.not_eq_true'] at placed
      simp only [resolve, ResolvedStmt.exec]
      refine withValue_agree condition (EndsLexically layout _) lexical (fun result after lexical => ?_)
        fun error after lexical => .of_isLexical rfl lexical
      by_cases holds : result.isTruthy = true
      · simp only [if_pos holds]
        obtain ⟨same, ends⟩ := exec_agree policy layout thenBranch placed.2 after lexical
        exact ⟨same, .of_isLexical rfl (ends.isLexical placed.1)⟩
      · simp only [if_neg holds]
        exact ⟨trivial, .of_isLexical rfl lexical⟩
  | layout, .ifElse condition thenBranch elseBranch, placed, _, world, lexical => by
      simp only [declaresInBlocks, Bool.and_eq_true, Bool.not_eq_true'] at placed
      simp only [resolve, ResolvedStmt.exec]
      refine withValue_agree condition (EndsLexically layout _) lexical (fun result after lexical => ?_)
        fun error after lexical => .of_isLexical rfl lexical
      by_cases holds : result.isTruthy = true
      · simp only [if_pos holds]
        obtain ⟨same, ends⟩ := exec_agree policy layout thenBranch placed.1.2 after lexical
        exact ⟨same, .of_isLexical rfl (ends.isLexical placed.1.1)⟩
      · simp only [if_neg holds]
        obtain ⟨same, ends⟩ := exec_agree policy layout elseBranch placed.2.2 after lexical
        exact ⟨same, .of_isLexical rfl (ends.isLexical placed.2.1)⟩
  | layout, .print value, _, _, world, lexical => by
      simp only [resolve, ResolvedStmt.exec]
      exact withValue_agree value (EndsLexically layout _) lexical
        (fun result after lexical =>
          ⟨rfl, .of_isLexical rfl ⟨lexical.fits, lexical.accesses⟩⟩)
        fun error after lexical => .of_isLexical rfl lexical
  | layout, .declare name none, _, _, world, lexical => by
      simp only [resolve, Option.map_none, ResolvedStmt.exec]
      exact ⟨trivial, endsLexically_declare name none .nil lexical⟩
  | layout, .declare name (some initial), _, _, world, lexical => by
      simp only [resolve, Option.map_some, ResolvedStmt.exec]
      exact withValue_agree initial (EndsLexically layout _) lexical
        (fun result after lexical =>
          ⟨rfl, endsLexically_declare name (some initial) result lexical⟩)
        fun error after lexical => ⟨fun ended => by simp at ended, fun _ => lexical⟩
  | layout, .loop condition body, placed, _, world, lexical => by
      simp only [declaresInBlocks, Bool.and_eq_true, Bool.not_eq_true'] at placed
      simp only [resolve, ResolvedStmt.exec]
      obtain ⟨same, after⟩ :=
        repeatWhile_agree condition
          (fun inner lexical => by
            obtain ⟨same, ends⟩ := exec_agree policy layout body placed.2 inner lexical
            exact ⟨same, ends.isLexical placed.1⟩)
          policy.rounds lexical
      exact ⟨same, .of_isLexical rfl after⟩

/-- The statements of a block keep both ways of finding names together. -/
theorem execAll_agree
    (policy : Policy) :
    (names : List String) →
    (outer : Layout) →
    (statements : List Stmt) →
    allDeclareInBlocks statements = true →
    {depth : Nat} →
    (world : TracedWorld depth) →
    world.IsLexical (names :: outer) →
    ResolvedStmt.execAll .direct policy (resolveAll (names :: outer) statements) world =
        ResolvedStmt.execAll .walking policy (resolveAll (names :: outer) statements) world ∧
      ∃ declared,
        (ResolvedStmt.execAll .walking policy (resolveAll (names :: outer) statements)
          world).2.IsLexical (declared :: outer)
  | names, outer, [], _, _, world, lexical => by
      simp only [resolveAll, ResolvedStmt.execAll]
      exact ⟨trivial, names, lexical⟩
  | names, outer, first :: rest, placed, _, world, lexical => by
      simp only [allDeclareInBlocks, Bool.and_eq_true] at placed
      simp only [resolveAll, ResolvedStmt.execAll]
      obtain ⟨same, ends⟩ := exec_agree policy (names :: outer) first placed.1 world lexical
      have behind :
          ∃ declared, first.layoutBehind (names :: outer) = declared :: outer := by
        cases first <;> exact ⟨_, rfl⟩
      obtain ⟨declared, isBehind⟩ := behind
      rw [same]
      generalize (first.resolve (names :: outer)).exec .walking policy world = ending at ends
      obtain ⟨outcome, after⟩ := ending
      cases outcome with
      | normal =>
          have lexicalBehind := ends.normally rfl
          rw [isBehind] at lexicalBehind ⊢
          exact execAll_agree policy declared outer rest placed.2 after lexicalBehind
      | left => exact ⟨rfl, names, ends.otherwise (by simp)⟩
      | failed error => exact ⟨rfl, names, ends.otherwise (by simp)⟩
      | exhausted => exact ⟨rfl, names, ends.otherwise (by simp)⟩

end

/-- A program keeps both ways of finding names together. -/
theorem execProgram_agree
    (policy : Policy)
    {statements : List Stmt}
    (placed : allDeclareInBlocks statements = true)
    {world : TracedWorld 0}
    (lexical : world.IsLexical []) :
    ResolvedStmt.execProgram .direct policy (resolveAll [] statements) world =
        ResolvedStmt.execProgram .walking policy (resolveAll [] statements) world ∧
      (ResolvedStmt.execProgram .walking policy (resolveAll [] statements)
        world).2.IsLexical [] := by
  induction statements generalizing world with
  | nil =>
      exact ⟨rfl, lexical⟩
  | cons first rest inductionHypothesis =>
      simp only [allDeclareInBlocks, Bool.and_eq_true] at placed
      have isGlobal : first.layoutBehind [] = [] := by
        cases first <;> rfl
      simp only [resolveAll, isGlobal, ResolvedStmt.execProgram]
      obtain ⟨same, ends⟩ := exec_agree policy [] first placed.1 world lexical
      have after : ((first.resolve []).exec .walking policy world).2.IsLexical [] := by
        by_cases normal : ((first.resolve []).exec .walking policy world).1 = .normal
        · have lexicalBehind := ends.normally normal
          rwa [isGlobal] at lexicalBehind
        · exact ends.otherwise normal
      rw [same]
      generalize (first.resolve []).exec .walking policy world = ending at after
      obtain ⟨outcome, next⟩ := ending
      cases outcome with
      | normal => exact inductionHypothesis placed.2 after
      | left => exact inductionHypothesis placed.2 after
      | _ => exact ⟨rfl, after⟩

end Stmt

/-! ## Programs that have been read -/

namespace Grammar

open Stmt

/-- A declaration phrase stands for a declaration. -/
theorem VariablePhrase.declaresInBlocks
    {tokens : List Token}
    {statement : Stmt}
    {errors : List GrammarError}
    (phrase : VariablePhrase tokens statement errors) :
    statement.declaresInBlocks = true := by
  cases phrase <;> rfl

/-- The first part of the header of a counting loop declares in the block around the loop. -/
theorem InitialPhrase.allDeclareInBlocks
    {tokens : List Token}
    {initial : Option Stmt}
    {errors : List GrammarError}
    (phrase : InitialPhrase tokens initial errors) :
    allDeclareInBlocks initial.toList = true := by
  cases phrase with
  | missing => rfl
  | declare declares => simp [Stmt.allDeclareInBlocks, declares.declaresInBlocks]
  | expression => rfl

/-- A statement phrase never stands for a declaration. -/
theorem StatementPhrase.not_isDeclaration
    {inLoop : Bool}
    {ending : Ending}
    {tokens : List Token}
    {statement : Stmt}
    {errors : List GrammarError}
    (phrase : StatementPhrase inLoop ending tokens statement errors) :
    statement.isDeclaration = false := by
  cases phrase <;> rfl

/-- Statements declare in blocks when both of their parts do. -/
theorem allDeclareInBlocks_append
    (first second : List Stmt) :
    allDeclareInBlocks (first ++ second) =
      (allDeclareInBlocks first && allDeclareInBlocks second) := by
  induction first with
  | nil =>
      rfl
  | cons statement rest inductionHypothesis =>
      simp only [List.cons_append, allDeclareInBlocks, inductionHypothesis, Bool.and_assoc]

/-- A counting loop declares in the block around it and in its body. -/
theorem declaresInBlocks_forLoop
    {initial : Option Stmt}
    (initialPlaced : allDeclareInBlocks initial.toList = true)
    (condition step : Option Expr)
    {body : Stmt}
    (bodyPlaced : body.declaresInBlocks = true) :
    (Stmt.forLoop initial condition step body).declaresInBlocks = true := by
  cases step <;>
    simp [Stmt.forLoop, declaresInBlocks, allDeclareInBlocks, allDeclareInBlocks_append,
      initialPlaced, bodyPlaced, isDeclaration]

mutual

/-- What is read as a statement declares in blocks only. -/
theorem StatementPhrase.declaresInBlocks :
    ∀ {inLoop : Bool} {ending : Ending} {tokens : List Token} {statement : Stmt}
      {errors : List GrammarError},
      StatementPhrase inLoop ending tokens statement errors →
      statement.declaresInBlocks = true
  | _, _, _, _, _, .block _ body _ => by
      simp only [Stmt.declaresInBlocks]
      exact body.allDeclareInBlocks
  | _, _, _, _, _, .leave .. => rfl
  | _, _, _, _, _, .expression .. => rfl
  | _, _, _, _, _, .print .. => rfl
  | _, _, _, _, _, .ifThen _ _ _ _ chosen => by
      simp [Stmt.declaresInBlocks, chosen.declaresInBlocks, chosen.not_isDeclaration]
  | _, _, _, _, _, .ifElse _ _ _ _ chosen _ alternative => by
      simp [Stmt.declaresInBlocks, chosen.declaresInBlocks, chosen.not_isDeclaration,
        alternative.declaresInBlocks, alternative.not_isDeclaration]
  | _, _, _, _, _, .whileLoop _ _ _ _ repeated => by
      simp [Stmt.declaresInBlocks, repeated.declaresInBlocks, repeated.not_isDeclaration]
  | _, _, _, _, _, .forLoop _ _ first _ _ _ _ repeated =>
      declaresInBlocks_forLoop first.allDeclareInBlocks _ _ repeated.declaresInBlocks

/-- What is read as a block or a program declares in blocks only. -/
theorem BodyPhrase.allDeclareInBlocks :
    ∀ {inLoop : Bool} {tokens : List Token} {statements : List Stmt}
      {errors : List GrammarError},
      BodyPhrase inLoop tokens statements errors →
      Stmt.allDeclareInBlocks statements = true
  | _, _, _, _, .nil => rfl
  | _, _, _, _, .declare first others => by
      simp [Stmt.allDeclareInBlocks, first.declaresInBlocks, others.allDeclareInBlocks]
  | _, _, _, _, .statement first others => by
      simp [Stmt.allDeclareInBlocks, first.declaresInBlocks, others.allDeclareInBlocks]

end

/-- What is read without an error declares in blocks only. -/
theorem allDeclareInBlocks_ofTokens
    {tokens : List Token}
    (hasEnd : ∃ token ∈ tokens, token.kind = .endOfInput)
    (noErrors : (Program.ofTokens tokens).errors = []) :
    Stmt.allDeclareInBlocks (Program.ofTokens tokens).statements = true := by
  obtain ⟨ending, rest, same, isEnding⟩ := exists_append_beforeEnd_of_mem hasEnd
  -- Nothing behind the first end token is read.
  have cut : Program.ofTokens tokens = Program.ofTokens (beforeEnd tokens ++ [ending]) := by
    conv => lhs; rw [same]
    rw [Program.ofTokens, Program.ofTokens,
      Reader.read_append isEnding _ rest kind_ne_of_mem_beforeEnd,
      Reader.read_append isEnding _ [] kind_ne_of_mem_beforeEnd]
  rw [cut] at noErrors ⊢
  exact (bodyPhrase_of_errors_eq_nil (by simp) isEnding noErrors).allDeclareInBlocks

end Grammar

/-- The world in which a program begins, with nothing recorded. -/
def TracedWorld.initial
    (globals : Scope) :
    TracedWorld 0 where
  chain :=
    .globals globals
  lines :=
    []
  accesses :=
    []

/--
Names are found in the scopes that the text names.  A program that was read
without an error runs as its resolved form does, every use of a name in that run
walks outward to the scope of the innermost block that has declared the name
before it, and the run that goes straight to those scopes is the same run.
-/
theorem Program.names_are_lexical
    {tokens : List Token}
    (hasEnd : ∃ token ∈ tokens, token.kind = .endOfInput)
    (noErrors : (Program.ofTokens tokens).errors = [])
    (policy : Policy)
    (globals : Scope) :
    let statements := (Program.ofTokens tokens).statements
    let resolved := Stmt.resolveAll [] statements
    let walked := ResolvedStmt.execProgram .walking policy resolved (.initial globals)
    untracedEnding walked =
        Stmt.execProgram policy statements { chain := .globals globals, lines := [] } ∧
      (∀ access ∈ walked.2.accesses, access.IsLexical) ∧
      ResolvedStmt.execProgram .direct policy resolved (.initial globals) = walked := by
  intro statements resolved walked
  have placed := Grammar.allDeclareInBlocks_ofTokens hasEnd noErrors
  have begins : (TracedWorld.initial globals).IsLexical [] := by
    refine ⟨trivial, fun access used => ?_⟩
    cases used
  obtain ⟨same, ends⟩ := Stmt.execProgram_agree policy placed begins
  exact ⟨Stmt.untracedEnding_execProgram policy [] statements _, ends.accesses, same⟩

/-- A use of the name `x`. -/
def nameX : Token :=
  { kind := .identifier, lexeme := "x", literal := .nil, line := 1 }

/-- The tokens of `{ var x = x; { x = x; } }`. -/
def shadowingBlock : List Token :=
  let bare (kind : Kind) : Token := { kind, lexeme := "", literal := .nil, line := 1 }
  [bare (.mark .leftBrace), bare (.keyword .varWord), nameX, bare (.mark .equal), nameX,
    bare (.mark .semicolon), bare (.mark .leftBrace), nameX, bare (.mark .equal), nameX,
    bare (.mark .semicolon), bare (.mark .rightBrace), bare (.mark .rightBrace),
    bare .endOfInput]

/-- The initial value is taken from outside the block, whose own name is then used. -/
theorem Program.names_are_lexical_shadowingBlock :
    Stmt.resolveAll [] (Program.ofTokens shadowingBlock).statements =
        [.block
          [.declare nameX (some (.lookup nameX 1)),
            .block [.expression (.assign nameX 1 (.lookup nameX 1))]]] ∧
      ∀ (policy : Policy) (globals : Scope),
        ∀ access ∈ (ResolvedStmt.execProgram .walking policy
            (Stmt.resolveAll [] (Program.ofTokens shadowingBlock).statements)
            (.initial globals)).2.accesses,
          access.IsLexical :=
  ⟨rfl, fun policy globals =>
    (Program.names_are_lexical (by decide) (by decide) policy globals).2.1⟩

end BlockScript
