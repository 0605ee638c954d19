import BlockScript.Proofs.Execution.Changing

namespace BlockScript

/-!
# How scopes grow

Executing a statement never removes a name from a scope.  Only the innermost
scope gains names, and only those that the statement declares outside its own
blocks; the scopes around it keep the names that they have.  This holds of every
statement and of every way in which it ends.
-/

/-- A scope has gained the given names, and has no other names than before besides them. -/
def Scope.Gains
    (names : List String)
    (before after : Scope) :
    Prop :=
  ∀ name, name ∈ after ↔ name ∈ before ∨ name ∈ names

namespace Scope.Gains

variable {before after : Scope} {name : String}

/-- A scope that is left as it is gains nothing. -/
theorem refl
    (scope : Scope) :
    Gains [] scope scope := by
  intro name
  simp

/-- What is gained in two steps. -/
theorem trans
    {names others : List String}
    {last : Scope}
    (first : Gains names before after)
    (second : Gains others after last) :
    Gains (names ++ others) before last := by
  intro name
  rw [second name, first name, List.mem_append, or_assoc]

/-- A binding adds its name. -/
theorem insert
    (scope : Scope)
    (name : String)
    (value : Value) :
    Gains [name] scope (scope.insert name value) := by
  intro other
  rw [Std.TreeMap.mem_insert, Std.LawfulEqCmp.compare_eq_iff_eq, List.mem_singleton, or_comm,
    eq_comm]

/-- A binding of a name that is there already adds nothing. -/
theorem insert_of_mem
    (bound : name ∈ before)
    (value : Value) :
    Gains [] before (before.insert name value) := by
  intro other
  rw [insert before name value other, List.mem_singleton]
  constructor
  · rintro (already | rfl)
    · exact .inl already
    · exact .inl bound
  · rintro (already | none)
    · exact .inl already
    · cases none

end Scope.Gains

namespace Chain

/-- The innermost scope has gained the given names, and the scopes around it none. -/
inductive Grows : List String → {depth : Nat} → Chain depth → Chain depth → Prop where
  | globals
      {names : List String}
      {before after : Scope}
      (gains : Scope.Gains names before after) :
      Grows names (.globals before) (.globals after)
  | nested
      {names : List String}
      {depth : Nat}
      {before after : Scope}
      {enclosing around : Chain depth}
      (gains : Scope.Gains names before after)
      (outside : Grows [] enclosing around) :
      Grows names (.nested before enclosing) (.nested after around)

variable {depth : Nat} {before after : Chain depth}

/-- A chain that is left as it is does not grow. -/
theorem Grows.refl
    (chain : Chain depth) :
    Grows [] chain chain := by
  induction chain with
  | globals scope =>
      exact .globals (.refl scope)
  | nested scope _ inductionHypothesis =>
      exact .nested (.refl scope) inductionHypothesis

/-- A chain that grows twice. -/
theorem Grows.trans
    {names others : List String}
    {last : Chain depth}
    (first : Grows names before after)
    (second : Grows others after last) :
    Grows (names ++ others) before last := by
  induction first generalizing others with
  | globals gains =>
      cases second with
      | globals alsoGains => exact .globals (gains.trans alsoGains)
  | nested gains _ inductionHypothesis =>
      cases second with
      | nested alsoGains alsoOutside =>
          exact .nested (gains.trans alsoGains) (inductionHypothesis alsoOutside)

/-- A declaration adds its name to the innermost scope. -/
theorem grows_define
    (name : String)
    (value : Value)
    (chain : Chain depth) :
    Grows [name] chain (chain.define name value) := by
  cases chain with
  | globals scope => exact .globals (.insert scope name value)
  | nested scope enclosing => exact .nested (.insert scope name value) (.refl enclosing)

/-- An assignment adds no name to any scope. -/
theorem grows_of_assign?
    {name : String}
    {value : Value}
    {chain assigned : Chain depth}
    (assigns : chain.assign? name value = some assigned) :
    Grows [] chain assigned := by
  induction chain with
  | globals scope =>
      unfold assign? at assigns
      split at assigns
      · rename_i bound
        cases assigns
        exact .globals (.insert_of_mem bound value)
      · cases assigns
  | nested scope enclosing inductionHypothesis =>
      unfold assign? at assigns
      split at assigns
      · rename_i bound
        cases assigns
        exact .nested (.insert_of_mem bound value) (.refl enclosing)
      · obtain ⟨changed, inside, rfl⟩ := Option.map_eq_some_iff.mp assigns
        exact .nested (.refl scope) (inductionHypothesis inside)

/-- Whatever a block adds to its own scope is dropped with it. -/
theorem Grows.leave
    {names : List String}
    {inner : Chain (depth + 1)}
    (grows : Grows names before.enter inner) :
    Grows [] before inner.leave := by
  cases grows with
  | nested _ outside => exact outside

/-- What the global scope has gained when no block has been entered. -/
theorem Grows.gains_globalScope
    {names : List String}
    {before after : Chain 0}
    (grows : Grows names before after) :
    Scope.Gains names before.globalScope after.globalScope := by
  cases grows with
  | globals gains => exact gains

/-- The innermost scope has gained some of the given names, and the scopes around it none. -/
def GrowsWithin
    (limit : List String)
    (before after : Chain depth) :
    Prop :=
  ∃ names ⊆ limit, Grows names before after

namespace GrowsWithin

variable {limit : List String}

/-- A chain that is left as it is stays within every limit. -/
theorem refl
    (limit : List String)
    (chain : Chain depth) :
    GrowsWithin limit chain chain :=
  ⟨[], List.nil_subset _, .refl chain⟩

/-- A chain that grows twice within a limit does so together. -/
theorem trans
    {last : Chain depth}
    (first : GrowsWithin limit before after)
    (second : GrowsWithin limit after last) :
    GrowsWithin limit before last := by
  obtain ⟨names, within, grows⟩ := first
  obtain ⟨others, othersWithin, growsOn⟩ := second
  exact ⟨names ++ others, List.append_subset.mpr ⟨within, othersWithin⟩, grows.trans growsOn⟩

/-- A chain that grows within a limit does so within a wider one. -/
theorem mono
    {wider : List String}
    (within : GrowsWithin limit before after)
    (wide : limit ⊆ wider) :
    GrowsWithin wider before after := by
  obtain ⟨names, some, grows⟩ := within
  exact ⟨names, List.Subset.trans some wide, grows⟩

/-- Without a name to gain, a chain does not grow. -/
theorem grows
    (within : GrowsWithin [] before after) :
    Grows [] before after := by
  obtain ⟨names, none, grows⟩ := within
  rwa [List.subset_nil.mp none] at grows

end GrowsWithin

/-- Growing within a limit is kept by every step of an execution. -/
theorem followsChanges_growsWithin :
    FollowsChanges (fun _ => True) fun limit {_} before after =>
      GrowsWithin limit before after where
  refl limit _ chain :=
    .refl limit chain
  trans :=
    GrowsWithin.trans
  mono wide within :=
    within.mono wide
  assign _ assigns :=
    ⟨[], List.nil_subset _, grows_of_assign? assigns⟩
  define name value _ chain :=
    ⟨[name], List.Subset.refl _, chain.grows_define name value⟩
  leave := by
    rintro declared depth before inner ⟨names, _, grows⟩
    exact ⟨[], List.nil_subset _, grows.leave⟩

end Chain

/-- Evaluating an expression adds no name to any scope. -/
theorem Expr.grows_eval
    {depth : Nat}
    (expr : Expr)
    (chain : Chain depth) :
    chain.Grows [] (expr.eval chain).chain :=
  (Chain.followsChanges_growsWithin.eval expr (fun _ _ => trivial) chain).grows

/-- However a statement ends, scopes have gained only names that it declares outside its blocks. -/
theorem Stmt.growsWithin_exec
    (policy : Policy)
    (statement : Stmt)
    {depth : Nat}
    (world : World depth) :
    world.chain.GrowsWithin statement.openNames (statement.exec policy world).2.chain :=
  Chain.followsChanges_growsWithin.exec policy statement (fun _ _ => trivial) world

end BlockScript
