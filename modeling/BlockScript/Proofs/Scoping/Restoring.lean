import BlockScript.Session
import BlockScript.Proofs.Execution.Sharing
import BlockScript.Proofs.Scoping.Growth

namespace BlockScript

/-!
# Going back to the scope of before

Statements run in the current one of shared scopes.  However a statement ends, the
scope that was current before is so again and lies inside the same scopes.  It has
gained no names but those that the statement declares outside its blocks, and all
other scopes that were there have the names that they had.

So programs that run one after another all run in the global scope that was there
first.
-/

/-- From every scope of a sound forest outward lies a chain. -/
theorem Forest.IsSound.exists_holds
    {forest : Forest}
    (sound : forest.IsSound)
    {scope : Nat}
    (isOpen : scope < forest.size) :
    ∃ depth, ∃ chain : Chain depth, forest.Holds scope chain := by
  induction scope using Nat.strongRecOn with
  | ind scope inductionHypothesis =>
      cases around : forest.enclosing? scope with
      | none => exact ⟨0, _, .globals isOpen around rfl⟩
      | some outer =>
          have earlier := sound scope outer around
          obtain ⟨depth, chain, holds⟩ :=
            inductionHypothesis outer earlier (Nat.lt_trans earlier isOpen)
          exact ⟨depth + 1, _, .nested around earlier rfl holds⟩

/-- Where a chain has grown, the scopes that hold it have gained the same names. -/
theorem Forest.Holds.gains
    {before after : Forest}
    {scope depth : Nat}
    {first second : Chain depth}
    (holds : before.Holds scope first)
    (holdsStill : after.Holds scope second)
    (sameEnclosing : ∀ other < before.size, after.enclosing? other = before.enclosing? other)
    {names : List String}
    (grows : first.Grows names second) :
    Scope.Gains names (before.bindings scope) (after.bindings scope) ∧
      ∀ other ∈ before.path scope,
        other ≠ scope → Scope.Gains [] (before.bindings other) (after.bindings other) := by
  induction holds generalizing names with
  | globals isOpen outermost binds =>
      subst binds
      cases holdsStill with
      | globals _ _ bindsStill =>
          subst bindsStill
          refine ⟨grows.gains_globalScope, fun other onPath differs => ?_⟩
          rw [path_of_outermost isOpen outermost, List.mem_singleton] at onPath
          exact absurd onPath differs
  | @nested scope outer _ _ _ enclosed earlier binds _ inductionHypothesis =>
      subst binds
      cases holdsStill with
      | nested enclosedStill _ bindsStill around =>
          subst bindsStill
          rw [sameEnclosing _ (lt_size_of_enclosing? enclosed), enclosed] at enclosedStill
          cases enclosedStill
          cases grows with
          | nested gains outside =>
              obtain ⟨ofOuter, further⟩ := inductionHypothesis around outside
              refine ⟨gains, fun other onPath differs => ?_⟩
              rw [path_of_enclosed enclosed earlier] at onPath
              have onOuter := (List.mem_cons.mp onPath).resolve_left differs
              by_cases isOuter : other = outer
              · rw [isOuter]
                exact ofOuter
              · exact further other onOuter isOuter

namespace SharedWorld

/-- Each scope lies in an earlier one or in none, and the current one has been opened. -/
structure IsSound
    (world : SharedWorld) :
    Prop where
  forest : world.forest.IsSound
  current : world.current < world.forest.size

/-- What every run keeps, and the names that the current scope may have gained. -/
structure Restores
    (gained : List String)
    (before after : SharedWorld) :
    Prop where
  /-- The same scope is the current one. -/
  current : after.current = before.current
  /-- The same scopes lie around it. -/
  path : after.forest.path after.current = before.forest.path before.current
  /-- Every scope that was there lies inside the same scope. -/
  enclosing? :
    ∀ scope < before.forest.size,
      after.forest.enclosing? scope = before.forest.enclosing? scope
  /-- The current scope has lost no name and gained at most the given ones. -/
  own :
    ∃ names ⊆ gained,
      Scope.Gains names (before.forest.bindings before.current)
        (after.forest.bindings before.current)
  /-- Every other scope that was there has the same names. -/
  others :
    ∀ scope < before.forest.size,
      scope ≠ before.current →
      Scope.Gains [] (before.forest.bindings scope) (after.forest.bindings scope)

/-- The current scope of a sound world holds a chain. -/
theorem IsSound.exists_mirrors
    {world : SharedWorld}
    (sound : world.IsSound) :
    ∃ depth, ∃ mirrored : World depth, world.Mirrors mirrored := by
  obtain ⟨depth, chain, holds⟩ := sound.forest.exists_holds sound.current
  exact ⟨depth, { chain, lines := world.lines }, holds, rfl⟩

end SharedWorld

namespace EndsInPlace

variable {before : SharedWorld} {shared : Outcome × SharedWorld} {depth : Nat}

/-- A run in a sound world leaves a sound world. -/
theorem isSound
    {ending : Outcome × World depth}
    (ends : EndsInPlace before shared ending)
    (sound : before.IsSound) :
    shared.2.IsSound where
  forest := ends.changes.sound sound.forest
  current := ends.mirrors.holds.lt_size

/-- A run restores the scopes when its chain grows within a limit. -/
theorem restores
    {world : World depth}
    {ending : Outcome × World depth}
    (mirrors : before.Mirrors world)
    (ends : EndsInPlace before shared ending)
    {gained : List String}
    (within : world.chain.GrowsWithin gained ending.2.chain) :
    before.Restores gained shared.2 := by
  obtain ⟨outcome, mirrorsStill, current, changes⟩ := ends
  obtain ⟨names, isGained, grows⟩ := within
  have holdsStill := current ▸ mirrorsStill.holds
  obtain ⟨own, around⟩ := mirrors.holds.gains holdsStill changes.enclosing? grows
  refine ⟨current, current ▸ changes.path, changes.enclosing?, ⟨names, isGained, own⟩, ?_⟩
  -- A scope on the way outward belongs to the chain; any other one is left alone.
  intro scope isOpen differs
  by_cases onPath : scope ∈ before.forest.path before.current
  · exact around scope onPath differs
  · rw [changes.bindings scope isOpen onPath]
    exact .refl _

end EndsInPlace

/-! ## Programs one after another -/

/-- A global scope and nothing else. -/
def SharedWorld.initial : SharedWorld where
  forest := Forest.empty.openScope none
  current := 0
  lines := []

/-- Execute programs one after another in shared scopes. -/
def SharedWorld.executeAll
    (programs : List (Policy × List Stmt))
    (world : SharedWorld) :
    SharedWorld :=
  programs.foldl
    (fun world program =>
      (Stmt.execProgramShared program.1 program.2 { world with lines := [] }).2)
    world

/-- Execute programs one after another in a session. -/
def Session.executeAll
    (programs : List (Policy × List Stmt))
    (session : Session) :
    Session :=
  programs.foldl (fun session program => (session.execute program.1 program.2).2) session

/-- A chain without a block is its global scope. -/
theorem Chain.globals_globalScope
    (chain : Chain 0) :
    .globals chain.globalScope = chain := by
  cases chain
  rfl

/-- Programs keep the current scope, which holds the global scope of the session. -/
theorem SharedWorld.holds_executeAll
    (programs : List (Policy × List Stmt))
    {world : SharedWorld}
    {session : Session}
    (holds : world.forest.Holds world.current (.globals session.globals)) :
    (world.executeAll programs).current = world.current ∧
      (world.executeAll programs).forest.Holds world.current
        (.globals (session.executeAll programs).globals) := by
  induction programs generalizing world session with
  | nil =>
      exact ⟨rfl, holds⟩
  | cons program programs inductionHypothesis =>
      have mirrors :
          SharedWorld.Mirrors { world with lines := [] }
            { chain := .globals session.globals, lines := [] : World 0 } :=
        ⟨holds, rfl⟩
      obtain ⟨_, mirrorsStill, current, _⟩ :=
        Stmt.endsInPlace_execProgramShared program.1 program.2 mirrors
      have holdsStill := mirrorsStill.holds
      rw [← Chain.globals_globalScope (Stmt.execProgram _ _ _).2.chain] at holdsStill
      -- The scope that the chain has come to is the one that the session goes on with.
      have following := @inductionHypothesis _ (session.execute program.1 program.2).2 holdsStill
      exact ⟨following.1.trans current, current ▸ following.2⟩

/-! ## Restored scopes -/

/-- Statements run in place in a world. -/
structure SharedWorld.RunsInPlace
    (policy : Policy)
    (world : SharedWorld) :
    Prop where
  /-- A statement restores the scopes up to the names that it declares outside its blocks. -/
  restores :
    ∀ statement : Stmt,
      world.Restores statement.openNames (statement.execShared policy world).2
  /-- A block restores the scopes altogether. -/
  restores_block :
    ∀ body, world.Restores [] ((Stmt.block body).execShared policy world).2
  /-- The world that a statement leaves is sound again. -/
  sound : ∀ statement : Stmt, (statement.execShared policy world).2.IsSound
  /-- The current scope holds a chain. -/
  mirrors : ∃ depth, ∃ mirrored : World depth, world.Mirrors mirrored
  /-- A statement ends as it does in the chain that the current scope holds. -/
  ends :
    ∀ {depth : Nat} {mirrored : World depth},
      world.Mirrors mirrored →
      ∀ statement : Stmt,
        EndsInPlace world (statement.execShared policy world) (statement.exec policy mirrored)

/--
However a statement ends, execution goes back to the scope of before: in every sound
world statements run in place.  So between programs the current scope is the global
scope that was there first, and binds what the session does.
-/
theorem execution_restores_scopes :
    (∀ (policy : Policy) (world : SharedWorld), world.IsSound → world.RunsInPlace policy) ∧
      ∀ programs,
        let world := SharedWorld.initial.executeAll programs
        world.current = SharedWorld.initial.current ∧
          world.forest.enclosing? world.current = none ∧
            world.forest.bindings world.current =
              (Session.executeAll programs {}).globals := by
  constructor
  · intro policy world sound
    obtain ⟨depth, mirrored, mirrors⟩ := sound.exists_mirrors
    have ends (statement : Stmt) := statement.endsInPlace_execShared policy mirrors
    have restores (statement : Stmt) :=
      (ends statement).restores mirrors (statement.growsWithin_exec policy mirrored)
    exact
      { restores
        restores_block := fun body => restores (.block body)
        sound := fun statement => (ends statement).isSound sound
        mirrors := ⟨depth, mirrored, mirrors⟩
        ends := fun mirrors statement => statement.endsInPlace_execShared policy mirrors }
  · intro programs world
    have initially : SharedWorld.initial.forest.Holds 0 (.globals ({} : Session).globals) :=
      .globals (by decide) rfl rfl
    obtain ⟨current, holds⟩ := SharedWorld.holds_executeAll programs initially
    refine ⟨current, ?_⟩
    rw [current]
    cases holds with
    | globals _ outermost binds => exact ⟨outermost, binds⟩

/-- A scope inside the global one, which binds `x`. -/
def insideX : SharedWorld where
  forest := ((Forest.empty.openScope none).define 0 "x" (.bool true)).openScope (some 0)
  current := 1
  lines := []

/-- The block `{ var y; x = nil; z; }`, in which `z` is not declared. -/
def missesZ : Stmt :=
  let named (lexeme : String) : Token :=
    { kind := .identifier, lexeme, literal := .nil, line := 1 }
  .block
    [.declare (named "y") none,
      .expression (.assign (named "x") (.literal .nil)),
      .expression (.lookup (named "z"))]

/-- A block that fails behind a declaration leaves the scopes with the names that they had. -/
theorem execution_restores_scopes_missesZ :
    insideX.IsSound ∧
      (∃ error, (missesZ.execShared {} insideX).1 = .failed error) ∧
        insideX.Restores [] (missesZ.execShared {} insideX).2 := by
  have sound : insideX.IsSound := by
    refine ⟨fun scope outer enclosed => ?_, by decide⟩
    match scope with
    | 0 => cases enclosed
    | 1 =>
        cases enclosed
        decide
    | _ + 2 => cases enclosed
  have mirrors :
      insideX.Mirrors
        { chain := .nested ∅ (.globals ((∅ : Scope).insert "x" (.bool true))), lines := [] } :=
    ⟨.nested rfl (by decide) rfl (.globals (by decide) rfl rfl), rfl⟩
  have inPlace := execution_restores_scopes.1 {} insideX sound
  refine ⟨sound, ?_, inPlace.restores missesZ⟩
  rw [(inPlace.ends mirrors missesZ).outcome]
  exact ⟨_, rfl⟩

end BlockScript
