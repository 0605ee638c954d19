import BlockScript.Proofs.Scoping.Growth

namespace BlockScript

/-!
# Two runs side by side

The same statement may be executed in two chains of scopes that differ.  When the
names that occur in it are found alike in both, and this stays so under the few
things that executing a statement does to a chain, then both runs write the same
lines, end alike and leave chains that are related again.

A relation between chains is given for each number of blocks that both runs have
entered, because a block nests one scope in each of them.
-/

namespace Expr

/-- The names that occur in an expression. -/
def names : Expr → List String
  | .assign name value => name.lexeme :: value.names
  | .binary _ _ left right => left.names ++ right.names
  | .group inner => inner.names
  | .literal _ => []
  | .conditional condition thenValue elseValue =>
      condition.names ++ (thenValue.names ++ elseValue.names)
  | .unary _ _ operand => operand.names
  | .lookup name => [name.lexeme]

end Expr

namespace Stmt

mutual

/-- The names that occur in a statement: those used, assigned to and declared. -/
def names : Stmt → List String
  | .block body => namesAll body
  | .leave _ => []
  | .expression value => value.names
  | .ifThen condition thenBranch => condition.names ++ thenBranch.names
  | .ifElse condition thenBranch elseBranch =>
      condition.names ++ (thenBranch.names ++ elseBranch.names)
  | .print value => value.names
  | .declare name none => [name.lexeme]
  | .declare name (some initial) => name.lexeme :: initial.names
  | .loop condition body => condition.names ++ body.names

/-- The names that occur in statements. -/
def namesAll : List Stmt → List String
  | [] => []
  | first :: rest => first.names ++ namesAll rest

end

/-- A name that a statement declares outside its own blocks occurs in it. -/
theorem openNames_subset_names :
    (statement : Stmt) →
    statement.openNames ⊆ statement.names
  | .block _ => List.nil_subset _
  | .leave _ => List.nil_subset _
  | .expression _ => List.nil_subset _
  | .ifThen _ thenBranch =>
      List.subset_append_of_subset_right _ (openNames_subset_names thenBranch)
  | .ifElse _ thenBranch elseBranch => by
      apply List.subset_append_of_subset_right
      rw [openNames, List.append_subset]
      constructor
      · exact List.subset_append_of_subset_left _ (openNames_subset_names thenBranch)
      · exact List.subset_append_of_subset_right _ (openNames_subset_names elseBranch)
  | .print _ => List.nil_subset _
  | .declare name none => List.Subset.refl [name.lexeme]
  | .declare name (some initial) => by simp [openNames, names]
  | .loop _ body =>
      List.subset_append_of_subset_right _ (openNames_subset_names body)

end Stmt

/-- A relation between two chains, for each number of blocks that both runs have entered. -/
abbrev ChainRelation :=
  Nat → {depth other : Nat} → Chain depth → Chain other → Prop

/--
What makes two runs stay side by side: a relation that finds the given names alike
and is kept by what statements do.  Before a block is entered only `declared` names
may be declared.
-/
structure KeepsRelation
    (names declared : List String)
    (Related : ChainRelation) :
    Prop where
  /-- The names have the same values. -/
  get? :
    ∀ {inner depth other : Nat} {first : Chain depth} {second : Chain other},
      Related inner first second →
      ∀ name ∈ names, first.get? name = second.get? name
  /-- The names can be assigned to in both chains or in neither. -/
  assign? :
    ∀ {inner depth other : Nat} {first : Chain depth} {second : Chain other},
      Related inner first second →
      ∀ name ∈ names,
      ∀ value, Option.Rel (Related inner) (first.assign? name value) (second.assign? name value)
  /-- The names can be declared inside a block. -/
  define :
    ∀ {inner depth other : Nat} {first : Chain depth} {second : Chain other},
      Related (inner + 1) first second →
      ∀ name ∈ names,
      ∀ value, Related (inner + 1) (first.define name value) (second.define name value)
  /-- Some names can be declared outside. -/
  declare :
    ∀ {depth other : Nat} {first : Chain depth} {second : Chain other},
      Related 0 first second →
      ∀ name ∈ declared,
      ∀ value, Related 0 (first.define name value) (second.define name value)
  enter :
    ∀ {inner depth other : Nat} {first : Chain depth} {second : Chain other},
      Related inner first second → Related (inner + 1) first.enter second.enter
  leave :
    ∀ {inner depth other : Nat} {first : Chain (depth + 1)} {second : Chain (other + 1)},
      Related (inner + 1) first second → Related inner first.leave second.leave

/-- Two evaluations that give the same result in related chains. -/
structure Evaluation.Pairs
    (Related : ChainRelation)
    (inner : Nat)
    {depth other : Nat}
    (first : Evaluation depth)
    (second : Evaluation other) :
    Prop where
  result : first.result = second.result
  chains : Related inner first.chain second.chain

/-- Two worlds with related chains in which the same lines have been written. -/
structure World.Pairs
    (Related : ChainRelation)
    (inner : Nat)
    {depth other : Nat}
    (first : World depth)
    (second : World other) :
    Prop where
  chains : Related inner first.chain second.chain
  lines : first.lines = second.lines

/-- Two runs that end alike. -/
structure EndsAlike
    (Related : ChainRelation)
    (inner : Nat)
    {depth other : Nat}
    (first : Outcome × World depth)
    (second : Outcome × World other) :
    Prop where
  outcome : first.1 = second.1
  worlds : first.2.Pairs Related inner second.2

section

variable {names declared : List String} {Related : ChainRelation} {inner depth other : Nat}

namespace Evaluation.Pairs

/-- Two evaluations that go on alike. -/
theorem andThen
    {first : Evaluation depth}
    {second : Evaluation other}
    {next : Value → Chain depth → Evaluation depth}
    {otherNext : Value → Chain other → Evaluation other}
    (begins : first.Pairs Related inner second)
    (goesOn :
      ∀ value {after : Chain depth} {otherAfter : Chain other},
        Related inner after otherAfter →
        (next value after).Pairs Related inner (otherNext value otherAfter)) :
    (first.andThen next).Pairs Related inner (second.andThen otherNext) := by
  obtain ⟨sameResult, related⟩ := begins
  unfold Evaluation.andThen
  rw [← sameResult]
  cases first.result with
  | ok value => exact goesOn value related
  | error error => exact ⟨rfl, related⟩

/-- An operator gives the same result in both runs. -/
theorem ofOperation
    {first : Chain depth}
    {second : Chain other}
    (related : Related inner first second)
    (token : Token)
    (result : Except RuntimeFault Value) :
    (Evaluation.ofOperation token result first).Pairs Related inner
      (.ofOperation token result second) :=
  ⟨rfl, related⟩

end Evaluation.Pairs

/-- An expression has the same value in related chains, or the same error. -/
theorem KeepsRelation.eval
    (keeps : KeepsRelation names declared Related)
    (expr : Expr)
    (within : expr.names ⊆ names)
    {first : Chain depth}
    {second : Chain other}
    (related : Related inner first second) :
    (expr.eval first).Pairs Related inner (expr.eval second) := by
  induction expr generalizing first second with
  | assign name value inductionHypothesis =>
      rw [Expr.names, List.cons_subset] at within
      refine (inductionHypothesis within.2 related).andThen ?_
      intro assigned after otherAfter reached
      have assigns := keeps.assign? reached name.lexeme within.1 assigned
      unfold Evaluation.assignTo
      generalize after.assign? name.lexeme assigned = changed at assigns
      generalize otherAfter.assign? name.lexeme assigned = otherChanged at assigns
      cases assigns with
      | some still => exact ⟨rfl, still⟩
      | none => exact ⟨rfl, reached⟩
  | binary token operator left right leftHypothesis rightHypothesis =>
      rw [Expr.names, List.append_subset] at within
      refine (leftHypothesis within.1 related).andThen ?_
      intro leftValue after otherAfter reached
      refine (rightHypothesis within.2 reached).andThen ?_
      intro rightValue last otherLast reached
      exact .ofOperation reached token (operator.apply leftValue rightValue)
  | group inner inductionHypothesis =>
      exact inductionHypothesis within related
  | literal value =>
      exact ⟨rfl, related⟩
  | conditional condition thenValue elseValue conditionHypothesis thenHypothesis elseHypothesis =>
      rw [Expr.names, List.append_subset, List.append_subset] at within
      refine (conditionHypothesis within.1 related).andThen ?_
      intro tested after otherAfter reached
      split
      · exact thenHypothesis within.2.1 reached
      · exact elseHypothesis within.2.2 reached
  | unary token operator operand inductionHypothesis =>
      refine (inductionHypothesis within related).andThen ?_
      intro operandValue after otherAfter reached
      exact .ofOperation reached token (operator.apply operandValue)
  | lookup name =>
      have found := keeps.get? related name.lexeme (within (List.mem_singleton_self _))
      refine ⟨?_, related⟩
      simp only [Expr.eval, Evaluation.lookUp, found]

/-- Two runs that end alike have one outcome. -/
theorem EndsAlike.exists_outcome
    {first : Outcome × World depth}
    {second : Outcome × World other}
    (alike : EndsAlike Related inner first second) :
    ∃ outcome after otherAfter,
      first = (outcome, after) ∧
        second = (outcome, otherAfter) ∧
          after.Pairs Related inner otherAfter := by
  obtain ⟨outcome, after⟩ := first
  obtain ⟨otherOutcome, otherAfter⟩ := second
  obtain rfl : outcome = otherOutcome := alike.outcome
  exact ⟨outcome, after, otherAfter, rfl, rfl, alike.worlds⟩

namespace World.Pairs

/-- Both runs go on with the value of an expression, or fail with its error. -/
theorem withValue
    (keeps : KeepsRelation names declared Related)
    {first : World depth}
    {second : World other}
    (pairs : first.Pairs Related inner second)
    {expr : Expr}
    (within : expr.names ⊆ names)
    {next : Value → World depth → Outcome × World depth}
    {otherNext : Value → World other → Outcome × World other}
    (goesOn :
      ∀ value {after : World depth} {otherAfter : World other},
        after.Pairs Related inner otherAfter →
        EndsAlike Related inner (next value after) (otherNext value otherAfter)) :
    EndsAlike Related inner (first.withValue expr next) (second.withValue expr otherNext) := by
  obtain ⟨sameResult, related⟩ := keeps.eval expr within pairs.chains
  have reached :
      World.Pairs Related inner { first with chain := (expr.eval first.chain).chain }
        { second with chain := (expr.eval second.chain).chain } :=
    ⟨related, pairs.lines⟩
  unfold World.withValue
  dsimp only
  rw [← sameResult]
  cases (expr.eval first.chain).result with
  | ok value => exact goesOn value reached
  | error error => exact ⟨rfl, reached⟩

/-- Both runs enter a block and leave it. -/
theorem inBlock
    (keeps : KeepsRelation names declared Related)
    {first : World depth}
    {second : World other}
    (pairs : first.Pairs Related inner second)
    {run : World (depth + 1) → Outcome × World (depth + 1)}
    {otherRun : World (other + 1) → Outcome × World (other + 1)}
    (runs :
      ∀ {entered : World (depth + 1)} {otherEntered : World (other + 1)},
        entered.Pairs Related (inner + 1) otherEntered →
        EndsAlike Related (inner + 1) (run entered) (otherRun otherEntered)) :
    EndsAlike Related inner (first.inBlock run) (second.inBlock otherRun) := by
  have entered :
      World.Pairs Related (inner + 1) { chain := first.chain.enter, lines := first.lines }
        { chain := second.chain.enter, lines := second.lines } :=
    ⟨keeps.enter pairs.chains, pairs.lines⟩
  obtain ⟨sameOutcome, ended⟩ := runs entered
  exact ⟨sameOutcome, keeps.leave ended.chains, ended.lines⟩

/-- Both loops end after the same round. -/
theorem repeatWhile
    (keeps : KeepsRelation names declared Related)
    {condition : Expr}
    (within : condition.names ⊆ names)
    {body : World depth → Outcome × World depth}
    {otherBody : World other → Outcome × World other}
    (runs :
      ∀ {world : World depth} {otherWorld : World other},
        world.Pairs Related inner otherWorld →
        EndsAlike Related inner (body world) (otherBody otherWorld))
    (rounds : Nat)
    {first : World depth}
    {second : World other}
    (pairs : first.Pairs Related inner second) :
    EndsAlike Related inner (World.repeatWhile condition body rounds first)
      (World.repeatWhile condition otherBody rounds second) := by
  induction rounds generalizing first second with
  | zero =>
      exact ⟨rfl, pairs⟩
  | succ rounds inductionHypothesis =>
      rw [World.repeatWhile_succ, World.repeatWhile_succ]
      refine pairs.withValue keeps within fun value tested otherTested reached => ?_
      split
      · obtain ⟨outcome, after, otherAfter, bodyEnds, otherEnds, reached⟩ :=
          (runs reached).exists_outcome
        rw [bodyEnds, otherEnds]
        cases outcome with
        | normal => exact inductionHypothesis reached
        | _ => exact ⟨rfl, reached⟩
      · exact ⟨rfl, reached⟩

/-- Both runs write the same line. -/
theorem write
    {first : World depth}
    {second : World other}
    (pairs : first.Pairs Related inner second)
    (line : Line) :
    (first.write line).Pairs Related inner (second.write line) :=
  ⟨pairs.chains, congrArg (line :: ·) pairs.lines⟩

/-- Both runs declare the same name. -/
theorem define
    (keeps : KeepsRelation names declared Related)
    {first : World depth}
    {second : World other}
    (pairs : first.Pairs Related inner second)
    {name : String}
    (within : name ∈ names)
    (outside : inner = 0 → name ∈ declared)
    (value : Value) :
    (first.define name value).Pairs Related inner (second.define name value) := by
  cases inner with
  | zero => exact ⟨keeps.declare pairs.chains name (outside rfl) value, pairs.lines⟩
  | succ inner => exact ⟨keeps.define pairs.chains name within value, pairs.lines⟩

end World.Pairs

end

namespace KeepsRelation

variable {names declared : List String} {Related : ChainRelation}

mutual

/-- A statement whose names are found alike ends alike in both runs. -/
theorem exec
    (keeps : KeepsRelation names declared Related)
    (policy : Policy) :
    (statement : Stmt) →
    statement.names ⊆ names →
    {inner : Nat} →
    (inner = 0 → statement.openNames ⊆ declared) →
    {depth other : Nat} →
    {first : World depth} →
    {second : World other} →
    first.Pairs Related inner second →
    EndsAlike Related inner (statement.exec policy first) (statement.exec policy second)
  | .block body, within, _, _, _, _, _, _, pairs => by
      rw [Stmt.names] at within
      simp only [Stmt.exec]
      refine pairs.inBlock keeps fun entered => ?_
      exact keeps.execAll policy body within (fun isOuter => absurd isOuter (by simp)) entered
  | .leave word, _, _, _, _, _, _, _, pairs => by
      simp only [Stmt.exec]
      exact ⟨rfl, pairs⟩
  | .expression value, within, _, _, _, _, _, _, pairs => by
      rw [Stmt.names] at within
      simp only [Stmt.exec]
      refine pairs.withValue keeps within fun result _ _ reached => ?_
      split
      · exact ⟨rfl, reached.write (.echoed result.text)⟩
      · exact ⟨rfl, reached⟩
  | .ifThen condition thenBranch, within, _, outside, _, _, _, _, pairs => by
      rw [Stmt.names, List.append_subset] at within
      simp only [Stmt.exec]
      refine pairs.withValue keeps within.1 fun result _ _ reached => ?_
      split
      · exact keeps.exec policy thenBranch within.2 outside reached
      · exact ⟨rfl, reached⟩
  | .ifElse condition thenBranch elseBranch, within, _, outside, _, _, _, _, pairs => by
      rw [Stmt.names, List.append_subset, List.append_subset] at within
      simp only [Stmt.openNames, List.append_subset] at outside
      simp only [Stmt.exec]
      refine pairs.withValue keeps within.1 fun result _ _ reached => ?_
      split
      · exact keeps.exec policy thenBranch within.2.1 (fun isOuter => (outside isOuter).1) reached
      · exact keeps.exec policy elseBranch within.2.2 (fun isOuter => (outside isOuter).2) reached
  | .print value, within, _, _, _, _, _, _, pairs => by
      rw [Stmt.names] at within
      simp only [Stmt.exec]
      exact pairs.withValue keeps within fun result _ _ reached =>
        ⟨rfl, reached.write (.printed result.text)⟩
  | .declare name none, within, _, outside, _, _, _, _, pairs => by
      rw [Stmt.names, List.cons_subset] at within
      simp only [Stmt.openNames, List.cons_subset] at outside
      simp only [Stmt.exec]
      exact ⟨rfl, pairs.define keeps within.1 (fun isOuter => (outside isOuter).1) .nil⟩
  | .declare name (some initial), within, _, outside, _, _, _, _, pairs => by
      rw [Stmt.names, List.cons_subset] at within
      simp only [Stmt.openNames, List.cons_subset] at outside
      simp only [Stmt.exec]
      exact pairs.withValue keeps within.2 fun result _ _ reached =>
        ⟨rfl, reached.define keeps within.1 (fun isOuter => (outside isOuter).1) result⟩
  | .loop condition body, within, _, outside, _, _, _, _, pairs => by
      rw [Stmt.names, List.append_subset] at within
      simp only [Stmt.exec]
      exact World.Pairs.repeatWhile keeps within.1
        (fun reached => keeps.exec policy body within.2 outside reached) policy.rounds pairs

/-- Statements whose names are found alike end alike in both runs. -/
theorem execAll
    (keeps : KeepsRelation names declared Related)
    (policy : Policy) :
    (statements : List Stmt) →
    Stmt.namesAll statements ⊆ names →
    {inner : Nat} →
    (inner = 0 → statements.flatMap Stmt.openNames ⊆ declared) →
    {depth other : Nat} →
    {first : World depth} →
    {second : World other} →
    first.Pairs Related inner second →
    EndsAlike Related inner (Stmt.execAll policy statements first)
      (Stmt.execAll policy statements second)
  | [], _, _, _, _, _, _, _, pairs => by
      simp only [Stmt.execAll]
      exact ⟨rfl, pairs⟩
  | statement :: rest, within, _, outside, _, _, first, second, pairs => by
      rw [Stmt.namesAll, List.append_subset] at within
      simp only [List.flatMap_cons, List.append_subset] at outside
      have begins :=
        keeps.exec policy statement within.1 (fun isOuter => (outside isOuter).1) pairs
      obtain ⟨outcome, after, otherAfter, firstEnds, secondEnds, reached⟩ := begins.exists_outcome
      simp only [Stmt.execAll, firstEnds, secondEnds]
      cases outcome with
      | normal =>
          exact keeps.execAll policy rest within.2 (fun isOuter => (outside isOuter).2) reached
      | _ => exact ⟨rfl, reached⟩

end

end KeepsRelation

end BlockScript
