import BlockScript.Proofs.Execution.Rounds
import BlockScript.Proofs.Scoping.Forest

namespace BlockScript

/-!
# Executing statements in shared scopes

Scopes may be shared: statements run in one scope of a forest, the current one, and
see the scopes around it.  A block opens a scope inside the current one, makes it
the current one while its statements run, and goes back to the scope that was
current before, however they end.  No scope is ever dropped.

A run in shared scopes does what a run in a chain does that holds the same bindings
as the current scope and the scopes around it.  It keeps all other scopes.
-/

/-! ## Evaluating and executing -/

/-- A value or an error, with the forest as the evaluation left it. -/
structure SharedEvaluation where
  result : Except RuntimeError Value
  forest : Forest

namespace SharedEvaluation

/-- Go on with the value of an evaluation, or keep its error. -/
def andThen
    (evaluation : SharedEvaluation)
    (next : Value → Forest → SharedEvaluation) :
    SharedEvaluation :=
  match evaluation.result with
  | .ok value => next value evaluation.forest
  | .error error => { result := .error error, forest := evaluation.forest }

/-- The result of an operator, whose fault is blamed on its token. -/
def ofOperation
    (token : Token)
    (result : Except RuntimeFault Value)
    (forest : Forest) :
    SharedEvaluation where
  result :=
    match result with
    | .ok value => .ok value
    | .error fault => .error { token, fault }
  forest :=
    forest

/-- The value of a name. -/
def lookUp
    (scope : Nat)
    (name : Token)
    (forest : Forest) :
    SharedEvaluation where
  result :=
    match forest.get? scope name.lexeme with
    | some value => .ok value
    | none => .error (.undefined name)
  forest :=
    forest

/-- Assign a value to a name; the assignment has that value. -/
def assignTo
    (scope : Nat)
    (name : Token)
    (value : Value)
    (forest : Forest) :
    SharedEvaluation :=
  match forest.assign? scope name.lexeme value with
  | some assigned => { result := .ok value, forest := assigned }
  | none => { result := .error (.undefined name), forest }

end SharedEvaluation

/-- Evaluate an expression in a scope of a forest. -/
def Expr.evalShared
    (scope : Nat) :
    Expr → Forest → SharedEvaluation
  | .assign name value, forest =>
      (value.evalShared scope forest).andThen fun assigned forest =>
        .assignTo scope name assigned forest
  | .binary token operator left right, forest =>
      (left.evalShared scope forest).andThen fun leftValue forest =>
        (right.evalShared scope forest).andThen fun rightValue forest =>
          .ofOperation token (operator.apply leftValue rightValue) forest
  | .group inner, forest => inner.evalShared scope forest
  | .literal value, forest => { result := .ok value, forest }
  | .conditional condition thenValue elseValue, forest =>
      (condition.evalShared scope forest).andThen fun conditionValue forest =>
        if conditionValue.isTruthy then
          thenValue.evalShared scope forest
        else
          elseValue.evalShared scope forest
  | .unary token operator operand, forest =>
      (operand.evalShared scope forest).andThen fun operandValue forest =>
        .ofOperation token (operator.apply operandValue) forest
  | .lookup name, forest => .lookUp scope name forest

/-- The scopes, the current one, and the lines written, the last line first. -/
structure SharedWorld where
  forest : Forest
  current : Nat
  lines : List Line

namespace SharedWorld

/-- Write a line. -/
def write
    (line : Line)
    (world : SharedWorld) :
    SharedWorld :=
  { world with lines := line :: world.lines }

/-- Bind a name in the current scope. -/
def define
    (name : String)
    (value : Value)
    (world : SharedWorld) :
    SharedWorld :=
  { world with forest := world.forest.define world.current name value }

/-- Open a scope inside the current one, which it replaces. -/
def enter
    (world : SharedWorld) :
    SharedWorld :=
  { world with
    forest := world.forest.openScope (some world.current)
    current := world.forest.size }

/-- Run something inside a scope of its own, then go back to the scope that is current now. -/
def inBlock
    (world : SharedWorld)
    (run : SharedWorld → Outcome × SharedWorld) :
    Outcome × SharedWorld :=
  let (outcome, after) := run world.enter
  (outcome, { after with current := world.current })

/-- Go on with the value of an expression, or fail with its error. -/
def withValue
    (world : SharedWorld)
    (expr : Expr)
    (next : Value → SharedWorld → Outcome × SharedWorld) :
    Outcome × SharedWorld :=
  let evaluation := expr.evalShared world.current world.forest
  let after := { world with forest := evaluation.forest }
  match evaluation.result with
  | .ok value => next value after
  | .error error => (.failed error, after)

/-- Run the body as long as the condition holds, at most the given number of times. -/
def repeatWhile
    (condition : Expr)
    (body : SharedWorld → Outcome × SharedWorld) :
    Nat → SharedWorld → Outcome × SharedWorld
  | 0, world => (.exhausted, world)
  | rounds + 1, world =>
      world.withValue condition fun value tested =>
        if value.isTruthy then
          match body tested with
          | (.normal, after) => repeatWhile condition body rounds after
          | (.left, after) => (.normal, after)
          | (.failed error, after) => (.failed error, after)
          | (.exhausted, after) => (.exhausted, after)
        else
          (.normal, tested)

end SharedWorld

namespace Stmt

mutual

/-- Execute a statement in the current scope. -/
def execShared
    (policy : Policy) :
    Stmt → SharedWorld → Outcome × SharedWorld
  | .block body, world => world.inBlock (execAllShared policy body)
  | .leave _, world => (.left, world)
  | .expression value, world =>
      world.withValue value fun result after =>
        if policy.echo && !value.isAssignment then
          (.normal, after.write (.echoed result.text))
        else
          (.normal, after)
  | .ifThen condition thenBranch, world =>
      world.withValue condition fun result after =>
        if result.isTruthy then
          execShared policy thenBranch after
        else
          (.normal, after)
  | .ifElse condition thenBranch elseBranch, world =>
      world.withValue condition fun result after =>
        if result.isTruthy then
          execShared policy thenBranch after
        else
          execShared policy elseBranch after
  | .print value, world =>
      world.withValue value fun result after =>
        (.normal, after.write (.printed result.text))
  | .declare name none, world => (.normal, world.define name.lexeme .nil)
  | .declare name (some initial), world =>
      world.withValue initial fun result after =>
        (.normal, after.define name.lexeme result)
  | .loop condition body, world =>
      SharedWorld.repeatWhile condition (execShared policy body) policy.rounds world

/-- Execute statements in order, as long as they end normally. -/
def execAllShared
    (policy : Policy) :
    List Stmt → SharedWorld → Outcome × SharedWorld
  | [], world => (.normal, world)
  | first :: rest, world =>
      match execShared policy first world with
      | (.normal, after) => execAllShared policy rest after
      | (.left, after) => (.left, after)
      | (.failed error, after) => (.failed error, after)
      | (.exhausted, after) => (.exhausted, after)

end

/-- Execute the statements of a program in the current scope. -/
def execProgramShared
    (policy : Policy) :
    List Stmt → SharedWorld → Outcome × SharedWorld
  | [], world => (.normal, world)
  | first :: rest, world =>
      match execShared policy first world with
      | (.normal, after) => execProgramShared policy rest after
      | (.left, after) => execProgramShared policy rest after
      | (.failed error, after) => (.failed error, after)
      | (.exhausted, after) => (.exhausted, after)

end Stmt

/-! ## Chains in forests -/

namespace Forest

/-- The scopes of a chain lie in a forest, from a given scope outward. -/
inductive Holds
    (forest : Forest) :
    Nat → {depth : Nat} → Chain depth → Prop where
  | globals
      {scope : Nat}
      {bindings : Scope}
      (isOpen : scope < forest.size)
      (outermost : forest.enclosing? scope = none)
      (binds : forest.bindings scope = bindings) :
      Holds forest scope (.globals bindings)
  | nested
      {scope outer : Nat}
      {bindings : Scope}
      {depth : Nat}
      {enclosing : Chain depth}
      (enclosed : forest.enclosing? scope = some outer)
      (earlier : outer < scope)
      (binds : forest.bindings scope = bindings)
      (around : Holds forest outer enclosing) :
      Holds forest scope (.nested bindings enclosing)

/-- All scopes stay where they are, and only those from a given one outward change bindings. -/
structure ChangesFrom
    (scope : Nat)
    (before after : Forest) :
    Prop where
  larger : before.size ≤ after.size
  sound : before.IsSound → after.IsSound
  enclosing? : ∀ other < before.size, after.enclosing? other = before.enclosing? other
  path : after.path scope = before.path scope
  bindings :
    ∀ other < before.size,
      other ∉ before.path scope →
      after.bindings other = before.bindings other

namespace ChangesFrom

variable {scope : Nat} {before after last : Forest}

/-- A forest that is left as it is. -/
theorem refl
    (scope : Nat)
    (forest : Forest) :
    ChangesFrom scope forest forest :=
  ⟨Nat.le_refl _, id, fun _ _ => rfl, rfl, fun _ _ _ => rfl⟩

/-- A forest that changes twice from the same scope. -/
theorem trans
    (first : ChangesFrom scope before after)
    (second : ChangesFrom scope after last) :
    ChangesFrom scope before last where
  larger := Nat.le_trans first.larger second.larger
  sound := second.sound ∘ first.sound
  enclosing? other isOpen :=
    (second.enclosing? other (Nat.lt_of_lt_of_le isOpen first.larger)).trans
      (first.enclosing? other isOpen)
  path := second.path.trans first.path
  bindings other isOpen offPath :=
    (second.bindings other (Nat.lt_of_lt_of_le isOpen first.larger) (first.path ▸ offPath)).trans
      (first.bindings other isOpen offPath)

/-- A binding in one of the scopes from a given one outward. -/
theorem define
    {forest : Forest}
    (isOpen : scope < forest.size)
    {target : Nat}
    (onPath : target ∈ forest.path scope)
    (name : String)
    (value : Value) :
    ChangesFrom scope forest (forest.define target name value) := by
  have sameSize := forest.size_define target name value
  have sameEnclosing := forest.enclosing?_define target name value
  refine ⟨Nat.le_of_eq sameSize.symm, fun sound other outer enclosed => ?_,
    fun other _ => sameEnclosing other, ?_, fun other _ offPath => ?_⟩
  · exact sound other outer ((sameEnclosing other).symm.trans enclosed)
  · exact path_congr (Nat.le_of_eq sameSize.symm) (fun other _ => sameEnclosing other) isOpen
  · exact bindings_define_of_ne (ne_of_mem_of_not_mem onPath offPath).symm name value

/-- What changes from the scope around changes from the scope inside it. -/
theorem inward
    {outer : Nat}
    (enclosed : before.enclosing? scope = some outer)
    (earlier : outer < scope)
    (changes : ChangesFrom outer before after) :
    ChangesFrom scope before after where
  larger := changes.larger
  sound := changes.sound
  enclosing? := changes.enclosing?
  path := path_congr changes.larger changes.enclosing? (lt_size_of_enclosing? enclosed)
  bindings other isOpen offPath := by
    rw [path_of_enclosed enclosed earlier] at offPath
    exact changes.bindings other isOpen (List.not_mem_of_not_mem_cons offPath)

/-- What changes from a scope that was just opened changes from the scope around it. -/
theorem leave
    {current : Nat}
    (isOpen : current < before.size)
    (changes : ChangesFrom before.size (before.openScope (some current)) after) :
    ChangesFrom current before after := by
  obtain ⟨larger, soundStill, sameEnclosing, _, sameBindings⟩ := changes
  rw [size_openScope] at larger
  simp only [size_openScope, enclosing?_openScope, bindings_openScope] at sameEnclosing sameBindings
  have staysIn (other : Nat) (otherOpen : other < before.size) :
      after.enclosing? other = before.enclosing? other := by
    rw [sameEnclosing other (Nat.lt_succ_of_lt otherOpen), if_neg (Nat.ne_of_lt otherOpen)]
  have opening : (before.openScope (some current)).path before.size =
      before.size :: before.path current := by
    have enclosed : (before.openScope (some current)).enclosing? before.size = some current := by
      rw [enclosing?_openScope, if_pos rfl]
    rw [path_of_enclosed enclosed isOpen, path_congr (by simp) ?_ isOpen]
    intro other otherOpen
    rw [enclosing?_openScope, if_neg (Nat.ne_of_lt otherOpen)]
  refine ⟨by omega, fun sound => soundStill (sound.openScope isOpen), staysIn,
    path_congr (by omega) staysIn isOpen, fun other otherOpen offPath => ?_⟩
  refine sameBindings other (Nat.lt_succ_of_lt otherOpen) ?_
  rw [opening, List.mem_cons, not_or]
  exact ⟨Nat.ne_of_lt otherOpen, offPath⟩

end ChangesFrom

namespace Holds

variable {forest : Forest} {scope depth : Nat} {chain : Chain depth}

/-- The innermost scope of a chain has been opened. -/
theorem lt_size
    (holds : forest.Holds scope chain) :
    scope < forest.size := by
  cases holds with
  | globals isOpen => exact isOpen
  | nested enclosed => exact lt_size_of_enclosing? enclosed

/-- A chain stays where it is as long as its scopes keep their places and bindings. -/
theorem congr
    {after : Forest}
    (holds : forest.Holds scope chain)
    (larger : forest.size ≤ after.size)
    (sameEnclosing : ∀ other < forest.size, after.enclosing? other = forest.enclosing? other)
    (sameBindings : ∀ other ≤ scope, after.bindings other = forest.bindings other) :
    after.Holds scope chain := by
  induction holds with
  | globals isOpen outermost binds =>
      exact .globals (Nat.lt_of_lt_of_le isOpen larger)
        ((sameEnclosing _ isOpen).trans outermost) ((sameBindings _ (Nat.le_refl _)).trans binds)
  | nested enclosed earlier binds _ inductionHypothesis =>
      refine .nested ((sameEnclosing _ (lt_size_of_enclosing? enclosed)).trans enclosed) earlier
        ((sameBindings _ (Nat.le_refl _)).trans binds) ?_
      exact inductionHypothesis fun other within =>
        sameBindings other (Nat.le_trans within (Nat.le_of_lt earlier))

/-- A name means the same in a chain and where it lies. -/
theorem get?_eq
    (holds : forest.Holds scope chain)
    (name : String) :
    forest.get? scope name = chain.get? name := by
  induction holds with
  | @globals scope _ isOpen outermost binds =>
      subst binds
      cases bound : (forest.bindings scope).contains name with
      | true => simp [get?, nearest?_of_contains isOpen bound, Chain.get?]
      | false =>
          have unbound := Std.TreeMap.getElem?_eq_none_of_contains_eq_false bound
          simp [get?, nearest?_of_outermost isOpen outermost bound, Chain.get?, unbound]
  | @nested scope _ _ _ _ enclosed earlier binds _ inductionHypothesis =>
      subst binds
      rw [Chain.get?, ← inductionHypothesis]
      cases bound : (forest.bindings scope).contains name with
      | true =>
          obtain ⟨value, isValue⟩ : ∃ value, (forest.bindings scope)[name]? = some value := by
            rw [← Option.isSome_iff_exists, ← Std.TreeMap.contains_eq_isSome_getElem?, bound]
          simp [get?, nearest?_of_contains (lt_size_of_enclosing? enclosed) bound, isValue]
      | false =>
          have unbound := Std.TreeMap.getElem?_eq_none_of_contains_eq_false bound
          simp [get?, nearest?_of_enclosed enclosed earlier bound, unbound]

/-- A declaration is made in the innermost scope of a chain. -/
theorem define
    (holds : forest.Holds scope chain)
    (name : String)
    (value : Value) :
    (forest.define scope name value).Holds scope (chain.define name value) := by
  have sameEnclosing := forest.enclosing?_define scope name value
  cases holds with
  | globals isOpen outermost binds =>
      refine .globals (by simpa using isOpen) ((sameEnclosing scope).trans outermost) ?_
      rw [bindings_define_self isOpen, binds]
  | nested enclosed earlier binds around =>
      refine .nested ((sameEnclosing scope).trans enclosed) earlier ?_ ?_
      · rw [bindings_define_self (lt_size_of_enclosing? enclosed), binds]
      · refine around.congr (by simp) (fun other _ => sameEnclosing other) fun other within => ?_
        exact bindings_define_of_ne (Nat.ne_of_lt (Nat.lt_of_le_of_lt within earlier)) name value

/-- A declaration changes the innermost scope of a chain. -/
theorem changesFrom_define
    (holds : forest.Holds scope chain)
    (name : String)
    (value : Value) :
    ChangesFrom scope forest (forest.define scope name value) := by
  refine .define holds.lt_size ?_ name value
  rw [path_of_lt_size holds.lt_size]
  exact List.mem_cons_self

/-- An assignment is made in the same scope of a chain, or fails in both. -/
theorem assign?_rel
    (holds : forest.Holds scope chain)
    (name : String)
    (value : Value) :
    Option.Rel
      (fun changed assigned => changed.Holds scope assigned ∧ ChangesFrom scope forest changed)
      (forest.assign? scope name value) (chain.assign? name value) := by
  have here := holds.changesFrom_define name value
  have defined := holds.define name value
  induction holds with
  | @globals scope bindings isOpen outermost binds =>
      subst binds
      rw [Chain.assign?, assign?]
      cases bound : (forest.bindings scope).contains name with
      | true =>
          rw [nearest?_of_contains isOpen bound]
          exact .some ⟨defined, here⟩
      | false =>
          rw [nearest?_of_outermost isOpen outermost bound]
          exact .none
  | @nested scope outer _ _ enclosing enclosed earlier binds around inductionHypothesis =>
      subst binds
      rw [Chain.assign?, assign?]
      cases bound : (forest.bindings scope).contains name with
      | true =>
          rw [nearest?_of_contains (lt_size_of_enclosing? enclosed) bound]
          exact .some ⟨defined, here⟩
      | false =>
          rw [nearest?_of_enclosed enclosed earlier bound]
          have outside :=
            inductionHypothesis (around.changesFrom_define name value) (around.define name value)
          rw [assign?] at outside
          generalize
            (forest.nearest? outer name).map (forest.define · name value) = changed at outside
          simp only [Bool.false_eq_true, ↓reduceIte]
          generalize enclosing.assign? name value = assigned at outside
          cases outside with
          | none => exact .none
          | some still =>
              obtain ⟨holdsAround, changes⟩ := still
              have isOpen := lt_size_of_enclosing? enclosed
              refine .some ⟨.nested ((changes.enclosing? scope isOpen).trans enclosed) earlier ?_
                holdsAround, changes.inward enclosed earlier⟩
              -- The way outward from the scope around never comes back to the scope inside it.
              exact changes.bindings scope isOpen fun onPath =>
                Nat.not_le_of_lt earlier (le_of_mem_path onPath)

/-- The scope of a block lies inside the current one and binds nothing. -/
theorem enter
    (holds : forest.Holds scope chain) :
    (forest.openScope (some scope)).Holds forest.size chain.enter := by
  refine .nested ?_ holds.lt_size ?_ ?_
  · rw [enclosing?_openScope, if_pos rfl]
  · rw [bindings_openScope, bindings_of_size_le (Nat.le_refl _)]
  · refine holds.congr (by simp) (fun other isOpen => ?_) fun other _ => bindings_openScope ..
    rw [enclosing?_openScope, if_neg (Nat.ne_of_lt isOpen)]

/-- Around the scope of a block lies the chain that it was entered from. -/
theorem leave
    {outer : Nat}
    {inner : Chain (depth + 1)}
    (holds : forest.Holds scope inner)
    (enclosed : forest.enclosing? scope = some outer) :
    forest.Holds outer inner.leave := by
  cases holds with
  | nested isEnclosed _ _ around =>
      rw [enclosed] at isEnclosed
      cases isEnclosed
      exact around

end Holds

end Forest

/-! ## A run in shared scopes follows a run in a chain -/

/-- A shared evaluation gives what an evaluation in a chain gives. -/
structure SharedEvaluation.Follows
    (scope : Nat)
    (before : Forest)
    (shared : SharedEvaluation)
    {depth : Nat}
    (evaluation : Evaluation depth) :
    Prop where
  result : shared.result = evaluation.result
  holds : shared.forest.Holds scope evaluation.chain
  changes : Forest.ChangesFrom scope before shared.forest

/-- The current scope and those around it hold the chain of a world with the same lines. -/
structure SharedWorld.Mirrors
    (shared : SharedWorld)
    {depth : Nat}
    (world : World depth) :
    Prop where
  holds : shared.forest.Holds shared.current world.chain
  lines : shared.lines = world.lines

/--
A shared run ends as a run in a chain does.  The same scope is the current one, and
it lies where it lay.
-/
structure EndsInPlace
    (before : SharedWorld)
    {depth : Nat}
    (shared : Outcome × SharedWorld)
    (ending : Outcome × World depth) :
    Prop where
  outcome : shared.1 = ending.1
  mirrors : shared.2.Mirrors ending.2
  current : shared.2.current = before.current
  changes : Forest.ChangesFrom before.current before.forest shared.2.forest

section Expressions

variable {scope depth : Nat}

/-- Two evaluations go on alike. -/
theorem SharedEvaluation.Follows.andThen
    {before : Forest}
    {shared : SharedEvaluation}
    {evaluation : Evaluation depth}
    {next : Value → Forest → SharedEvaluation}
    {otherNext : Value → Chain depth → Evaluation depth}
    (begins : shared.Follows scope before evaluation)
    (goesOn :
      ∀ value {forest : Forest} {chain : Chain depth},
        forest.Holds scope chain →
        (next value forest).Follows scope forest (otherNext value chain)) :
    (shared.andThen next).Follows scope before (evaluation.andThen otherNext) := by
  obtain ⟨sameResult, holds, changes⟩ := begins
  unfold SharedEvaluation.andThen Evaluation.andThen
  rw [sameResult]
  cases evaluation.result with
  | ok value =>
      have further := goesOn value holds
      exact ⟨further.result, further.holds, changes.trans further.changes⟩
  | error error => exact ⟨rfl, holds, changes⟩

/-- An expression has the same value in a chain and where it lies, or the same error. -/
theorem Expr.follows_evalShared
    (expr : Expr)
    {forest : Forest}
    {chain : Chain depth}
    (holds : forest.Holds scope chain) :
    (expr.evalShared scope forest).Follows scope forest (expr.eval chain) := by
  induction expr generalizing forest chain with
  | assign name value inductionHypothesis =>
      refine (inductionHypothesis holds).andThen fun assigned forest chain holds => ?_
      have assigns := holds.assign?_rel name.lexeme assigned
      unfold SharedEvaluation.assignTo Evaluation.assignTo
      generalize forest.assign? scope name.lexeme assigned = changed at assigns
      generalize chain.assign? name.lexeme assigned = assignedChain at assigns
      cases assigns with
      | some still => exact ⟨rfl, still.1, still.2⟩
      | none => exact ⟨rfl, holds, .refl scope forest⟩
  | binary token operator left right leftHypothesis rightHypothesis =>
      refine (leftHypothesis holds).andThen fun leftValue forest chain holds => ?_
      refine (rightHypothesis holds).andThen fun rightValue forest chain holds => ?_
      exact ⟨rfl, holds, .refl scope forest⟩
  | group inner inductionHypothesis =>
      exact inductionHypothesis holds
  | literal value =>
      exact ⟨rfl, holds, .refl scope forest⟩
  | conditional condition thenValue elseValue conditionHypothesis thenHypothesis elseHypothesis =>
      refine (conditionHypothesis holds).andThen fun tested forest chain holds => ?_
      split
      · exact thenHypothesis holds
      · exact elseHypothesis holds
  | unary token operator operand inductionHypothesis =>
      refine (inductionHypothesis holds).andThen fun operandValue forest chain holds => ?_
      exact ⟨rfl, holds, .refl scope forest⟩
  | lookup name =>
      refine ⟨?_, holds, .refl scope forest⟩
      cases found : chain.get? name.lexeme <;>
        simp only [evalShared, eval, SharedEvaluation.lookUp, Evaluation.lookUp, holds.get?_eq,
          found]

end Expressions

section Worlds

variable {depth : Nat} {before shared : SharedWorld} {world : World depth}

/-- A run that ends where it is. -/
theorem EndsInPlace.stay
    (mirrors : shared.Mirrors world)
    (outcome : Outcome) :
    EndsInPlace shared (outcome, shared) (outcome, world) :=
  ⟨rfl, mirrors, rfl, .refl shared.current shared.forest⟩

/-- A run behind steps that keep the current scope. -/
theorem EndsInPlace.behind
    {last : Outcome × SharedWorld}
    {ending : Outcome × World depth}
    (goesOn : EndsInPlace shared last ending)
    (current : shared.current = before.current)
    (changes : Forest.ChangesFrom before.current before.forest shared.forest) :
    EndsInPlace before last ending where
  outcome := goesOn.outcome
  mirrors := goesOn.mirrors
  current := goesOn.current.trans current
  changes := changes.trans (current ▸ goesOn.changes)

/-- A shared run and the run that it follows have one outcome. -/
theorem EndsInPlace.exists_outcome
    {last : Outcome × SharedWorld}
    {ending : Outcome × World depth}
    (ends : EndsInPlace before last ending) :
    ∃ outcome after otherAfter,
      last = (outcome, after) ∧
        ending = (outcome, otherAfter) ∧
          EndsInPlace before (outcome, after) (outcome, otherAfter) := by
  obtain ⟨outcome, after⟩ := last
  obtain ⟨otherOutcome, otherAfter⟩ := ending
  obtain rfl : outcome = otherOutcome := ends.outcome
  exact ⟨outcome, after, otherAfter, rfl, rfl, ends⟩

namespace SharedWorld.Mirrors

/-- Both runs write the same line. -/
theorem write
    (mirrors : shared.Mirrors world)
    (line : Line) :
    EndsInPlace shared (.normal, shared.write line) (.normal, world.write line) :=
  ⟨rfl, ⟨mirrors.holds, congrArg (line :: ·) mirrors.lines⟩, rfl, .refl _ _⟩

/-- Both runs declare the same name. -/
theorem define
    (mirrors : shared.Mirrors world)
    (name : String)
    (value : Value) :
    EndsInPlace shared (.normal, shared.define name value) (.normal, world.define name value) where
  outcome := rfl
  mirrors := ⟨mirrors.holds.define name value, mirrors.lines⟩
  current := rfl
  changes := mirrors.holds.changesFrom_define name value

/-- Both runs go on with the value of an expression, or fail with its error. -/
theorem withValue
    (mirrors : shared.Mirrors world)
    (expr : Expr)
    {next : Value → SharedWorld → Outcome × SharedWorld}
    {otherNext : Value → World depth → Outcome × World depth}
    (goesOn :
      ∀ value {after : SharedWorld} {otherAfter : World depth},
        after.Mirrors otherAfter →
        EndsInPlace after (next value after) (otherNext value otherAfter)) :
    EndsInPlace shared (shared.withValue expr next) (world.withValue expr otherNext) := by
  obtain ⟨sameResult, holds, changes⟩ := expr.follows_evalShared mirrors.holds
  have reached :
      SharedWorld.Mirrors
        { shared with forest := (expr.evalShared shared.current shared.forest).forest }
        { world with chain := (expr.eval world.chain).chain } :=
    ⟨holds, mirrors.lines⟩
  unfold SharedWorld.withValue World.withValue
  dsimp only
  rw [sameResult]
  cases (expr.eval world.chain).result with
  | ok value => exact (goesOn value reached).behind rfl changes
  | error error => exact (EndsInPlace.stay reached (.failed error)).behind rfl changes

/-- Whatever way a block ends, the scope that was current before is so again. -/
theorem inBlock
    (mirrors : shared.Mirrors world)
    {run : SharedWorld → Outcome × SharedWorld}
    {otherRun : World (depth + 1) → Outcome × World (depth + 1)}
    (runs :
      ∀ {entered : SharedWorld} {otherEntered : World (depth + 1)},
        entered.Mirrors otherEntered →
        EndsInPlace entered (run entered) (otherRun otherEntered)) :
    EndsInPlace shared (shared.inBlock run) (world.inBlock otherRun) := by
  have entered :
      shared.enter.Mirrors
        { chain := world.chain.enter, lines := world.lines : World (depth + 1) } :=
    ⟨mirrors.holds.enter, mirrors.lines⟩
  obtain ⟨sameOutcome, ended, stays, changes⟩ := runs entered
  have enclosed :
      (run shared.enter).2.forest.enclosing? shared.forest.size = some shared.current := by
    rw [changes.enclosing? shared.forest.size (by simp [enter]), enter,
      Forest.enclosing?_openScope, if_pos rfl]
  -- Inside the block the current scope was the one just opened, around which the old one lies.
  have left := stays ▸ ended.holds
  exact ⟨sameOutcome, ⟨left.leave enclosed, ended.lines⟩, rfl,
    changes.leave mirrors.holds.lt_size⟩

/-- Both loops end after the same round. -/
theorem repeatWhile
    (mirrors : shared.Mirrors world)
    {condition : Expr}
    {body : SharedWorld → Outcome × SharedWorld}
    {otherBody : World depth → Outcome × World depth}
    (runs :
      ∀ {shared : SharedWorld} {world : World depth},
        shared.Mirrors world → EndsInPlace shared (body shared) (otherBody world))
    (rounds : Nat) :
    EndsInPlace shared (SharedWorld.repeatWhile condition body rounds shared)
      (World.repeatWhile condition otherBody rounds world) := by
  induction rounds generalizing shared world with
  | zero =>
      exact .stay mirrors .exhausted
  | succ rounds inductionHypothesis =>
      rw [SharedWorld.repeatWhile, World.repeatWhile_succ]
      refine mirrors.withValue condition fun value tested otherTested reached => ?_
      split
      · obtain ⟨outcome, after, otherAfter, bodyEnds, otherEnds, round⟩ :=
          (runs reached).exists_outcome
        rw [bodyEnds, otherEnds]
        cases outcome with
        | normal => exact (inductionHypothesis round.mirrors).behind round.current round.changes
        | left => exact ⟨rfl, round.mirrors, round.current, round.changes⟩
        | _ => exact round
      · exact .stay reached .normal

end SharedWorld.Mirrors

end Worlds

namespace Stmt

mutual

/-- A statement ends in shared scopes as it does in the chain that they hold. -/
theorem endsInPlace_execShared
    (policy : Policy) :
    (statement : Stmt) →
    {depth : Nat} →
    {shared : SharedWorld} →
    {world : World depth} →
    shared.Mirrors world →
    EndsInPlace shared (statement.execShared policy shared) (statement.exec policy world)
  | .block body, _, _, _, mirrors => by
      simp only [execShared, exec]
      exact mirrors.inBlock (endsInPlace_execAllShared policy body)
  | .leave word, _, _, _, mirrors => by
      simp only [execShared, exec]
      exact .stay mirrors .left
  | .expression value, _, _, _, mirrors => by
      simp only [execShared, exec]
      refine mirrors.withValue value fun result _ _ reached => ?_
      split
      · exact reached.write (.echoed result.text)
      · exact .stay reached .normal
  | .ifThen condition thenBranch, _, _, _, mirrors => by
      simp only [execShared, exec]
      refine mirrors.withValue condition fun result _ _ reached => ?_
      split
      · exact endsInPlace_execShared policy thenBranch reached
      · exact .stay reached .normal
  | .ifElse condition thenBranch elseBranch, _, _, _, mirrors => by
      simp only [execShared, exec]
      refine mirrors.withValue condition fun result _ _ reached => ?_
      split
      · exact endsInPlace_execShared policy thenBranch reached
      · exact endsInPlace_execShared policy elseBranch reached
  | .print value, _, _, _, mirrors => by
      simp only [execShared, exec]
      exact mirrors.withValue value fun result _ _ reached => reached.write (.printed result.text)
  | .declare name none, _, _, _, mirrors => by
      simp only [execShared, exec]
      exact mirrors.define name.lexeme .nil
  | .declare name (some initial), _, _, _, mirrors => by
      simp only [execShared, exec]
      exact mirrors.withValue initial fun result _ _ reached => reached.define name.lexeme result
  | .loop condition body, _, _, _, mirrors => by
      simp only [execShared, exec]
      exact mirrors.repeatWhile (endsInPlace_execShared policy body) policy.rounds

/-- The statements of a block end in shared scopes as they do in the chain that they hold. -/
theorem endsInPlace_execAllShared
    (policy : Policy) :
    (statements : List Stmt) →
    {depth : Nat} →
    {shared : SharedWorld} →
    {world : World depth} →
    shared.Mirrors world →
    EndsInPlace shared (execAllShared policy statements shared) (execAll policy statements world)
  | [], _, _, _, mirrors => by
      simp only [execAllShared, execAll]
      exact .stay mirrors .normal
  | first :: rest, _, shared, world, mirrors => by
      obtain ⟨outcome, after, otherAfter, firstEnds, otherEnds, inFirst⟩ :=
        (endsInPlace_execShared policy first mirrors).exists_outcome
      simp only [execAllShared, execAll, firstEnds, otherEnds]
      cases outcome with
      | normal =>
          exact (endsInPlace_execAllShared policy rest inFirst.mirrors).behind inFirst.current
            inFirst.changes
      | _ => exact inFirst

end

/-- A program ends in a shared global scope as it does in the chain of that scope. -/
theorem endsInPlace_execProgramShared
    (policy : Policy)
    (statements : List Stmt)
    {shared : SharedWorld}
    {world : World 0}
    (mirrors : shared.Mirrors world) :
    EndsInPlace shared (execProgramShared policy statements shared)
      (execProgram policy statements world) := by
  induction statements generalizing shared world with
  | nil =>
      exact .stay mirrors .normal
  | cons first rest inductionHypothesis =>
      obtain ⟨outcome, after, otherAfter, firstEnds, otherEnds, inFirst⟩ :=
        (first.endsInPlace_execShared policy mirrors).exists_outcome
      have further := (inductionHypothesis inFirst.mirrors).behind inFirst.current inFirst.changes
      simp only [execProgramShared, execProgram, firstEnds, otherEnds]
      cases outcome with
      | normal => exact further
      | left => exact further
      | _ => exact inFirst

end Stmt

end BlockScript
