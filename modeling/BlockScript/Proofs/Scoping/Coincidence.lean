import BlockScript.Proofs.Execution.Relating

namespace BlockScript

/-!
# What a statement depends on and what it changes

What the scopes of a chain bind a name to is a list with an entry for each scope,
which tells whether the scope binds the name and to which value.  Every step of an
execution reads and changes the entries of one name only.  So a statement runs
alike in any two chains with the same entries for the names that occur in it, and
keeps the entries of every name that it neither assigns to nor declares outside
its blocks.
-/

namespace Chain

/-- What the scopes of a chain bind a name to, the innermost first. -/
def bindingsOf
    (name : String) :
    {depth : Nat} → Chain depth → List (Option Value)
  | _, .globals scope => [scope[name]?]
  | _, .nested scope enclosing => scope[name]? :: enclosing.bindingsOf name

/-- Change the first entry that has a value. -/
def assignFirst?
    (value : Value) :
    List (Option Value) → Option (List (Option Value))
  | [] => none
  | some _ :: outer => some (some value :: outer)
  | none :: outer => (assignFirst? value outer).map (none :: ·)

variable {depth : Nat}

/-- A name has the value of its first entry that has one. -/
theorem get?_eq_findSome?
    (name : String)
    (chain : Chain depth) :
    chain.get? name = (chain.bindingsOf name).findSome? id := by
  induction chain with
  | globals scope => cases found : scope[name]? <;> simp [get?, bindingsOf, found]
  | nested scope enclosing inductionHypothesis =>
      cases found : scope[name]? <;> simp [get?, bindingsOf, found, inductionHypothesis]

/-- An assignment changes the first entry of its name that has a value. -/
theorem map_bindingsOf_assign?
    (name : String)
    (value : Value)
    (chain : Chain depth) :
    (chain.assign? name value).map (bindingsOf name) =
      assignFirst? value (chain.bindingsOf name) := by
  induction chain with
  | globals scope =>
      cases found : scope[name]? <;>
        simp [assign?, bindingsOf, assignFirst?, Std.TreeMap.contains_eq_isSome_getElem?, found]
  | nested scope enclosing inductionHypothesis =>
      cases found : scope[name]? with
      | some bound =>
          simp [assign?, bindingsOf, assignFirst?, Std.TreeMap.contains_eq_isSome_getElem?, found]
      | none =>
          simp only [assign?, bindingsOf, assignFirst?, Std.TreeMap.contains_eq_isSome_getElem?,
            found, Option.isSome_none, Bool.false_eq_true, ↓reduceIte, Option.map_map,
            ← inductionHypothesis]
          congr 1
          funext assigned
          simp [bindingsOf, found]

/-- An assignment keeps the entries of every other name. -/
theorem bindingsOf_of_assign?
    {name other : String}
    (differs : other ≠ name)
    {value : Value}
    {chain assigned : Chain depth}
    (assigns : chain.assign? name value = some assigned) :
    assigned.bindingsOf other = chain.bindingsOf other := by
  induction chain with
  | globals scope =>
      unfold assign? at assigns
      split at assigns
      · cases assigns
        simp [bindingsOf, Std.TreeMap.getElem?_insert, Ne.symm differs]
      · cases assigns
  | nested scope enclosing inductionHypothesis =>
      unfold assign? at assigns
      split at assigns
      · cases assigns
        simp [bindingsOf, Std.TreeMap.getElem?_insert, Ne.symm differs]
      · obtain ⟨changed, inside, rfl⟩ := Option.map_eq_some_iff.mp assigns
        simp only [bindingsOf, inductionHypothesis inside]

/-- A declaration changes the first entry of its name. -/
theorem bindingsOf_define_self
    (name : String)
    (value : Value)
    (chain : Chain depth) :
    (chain.define name value).bindingsOf name = some value :: (chain.bindingsOf name).tail := by
  cases chain <;> simp [define, bindingsOf]

/-- A declaration keeps the entries of every other name. -/
theorem bindingsOf_define_of_ne
    {name other : String}
    (differs : other ≠ name)
    (value : Value)
    (chain : Chain depth) :
    (chain.define name value).bindingsOf other = chain.bindingsOf other := by
  cases chain <;> simp [define, bindingsOf, Std.TreeMap.getElem?_insert, Ne.symm differs]

/-- The scope of a block binds nothing at first. -/
@[simp]
theorem bindingsOf_enter
    (name : String)
    (chain : Chain depth) :
    chain.enter.bindingsOf name = none :: chain.bindingsOf name := by
  simp [enter, bindingsOf]

/-- Leaving a block drops the first entry of every name. -/
@[simp]
theorem bindingsOf_leave
    (name : String)
    (chain : Chain (depth + 1)) :
    chain.leave.bindingsOf name = (chain.bindingsOf name).tail := by
  cases chain with
  | nested scope enclosing => rfl

/-- Two chains in which each scope binds the given names alike. -/
def AgreeOn
    (names : List String)
    {depth other : Nat}
    (first : Chain depth)
    (second : Chain other) :
    Prop :=
  ∀ name ∈ names, first.bindingsOf name = second.bindingsOf name

namespace AgreeOn

variable {names : List String} {other : Nat} {first : Chain depth} {second : Chain other}

/-- Chains that agree on a name can be assigned to alike. -/
theorem assign?_rel
    (agree : AgreeOn names first second)
    {name : String}
    (isNamed : name ∈ names)
    (value : Value) :
    Option.Rel (AgreeOn names) (first.assign? name value) (second.assign? name value) := by
  have firstChanges := first.map_bindingsOf_assign? name value
  have secondChanges := second.map_bindingsOf_assign? name value
  rw [agree name isNamed, ← secondChanges] at firstChanges
  cases firstAssigns : first.assign? name value with
  | none =>
      rw [firstAssigns] at firstChanges
      rw [Option.map_eq_none_iff.mp firstChanges.symm]
      exact .none
  | some assigned =>
      rw [firstAssigns] at firstChanges
      obtain ⟨otherAssigned, secondAssigns, sameEntries⟩ :=
        Option.map_eq_some_iff.mp firstChanges.symm
      rw [secondAssigns]
      refine .some fun asked isAsked => ?_
      by_cases same : asked = name
      · rw [same]
        exact sameEntries.symm
      · rw [bindingsOf_of_assign? same firstAssigns, bindingsOf_of_assign? same secondAssigns]
        exact agree asked isAsked

/-- Chains that agree do so behind a declaration. -/
theorem define
    (agree : AgreeOn names first second)
    (name : String)
    (value : Value) :
    AgreeOn names (first.define name value) (second.define name value) := by
  intro asked isAsked
  by_cases same : asked = name
  · rw [← same, bindingsOf_define_self, bindingsOf_define_self, agree asked isAsked]
  · rw [bindingsOf_define_of_ne same, bindingsOf_define_of_ne same]
    exact agree asked isAsked

end AgreeOn

/-- Agreeing on names is kept by every step of an execution that mentions no other names. -/
theorem keepsRelation_agreeOn
    (names : List String) :
    KeepsRelation names names fun _ {_ _} first second => AgreeOn names first second where
  get? agree name isNamed := by
    rw [get?_eq_findSome?, get?_eq_findSome?, agree name isNamed]
  assign? agree _ isNamed value :=
    agree.assign?_rel isNamed value
  define agree name _ value :=
    agree.define name value
  declare agree name _ value :=
    agree.define name value
  enter agree name isNamed := by
    rw [bindingsOf_enter, bindingsOf_enter, agree name isNamed]
  leave agree name isNamed := by
    rw [bindingsOf_leave, bindingsOf_leave, agree name isNamed]

/-- The scopes around keep their entries of a name, and so does the innermost unless it declares. -/
structure Keeps
    (name : String)
    (declared : List String)
    {depth : Nat}
    (before after : Chain depth) :
    Prop where
  around : (after.bindingsOf name).tail = (before.bindingsOf name).tail
  own : name ∉ declared → after.bindingsOf name = before.bindingsOf name

/-- A name keeps its entries along every execution that does not assign to it. -/
theorem followsChanges_keeps
    (name : String) :
    FollowsChanges (· ≠ name) (Keeps name) where
  refl _ _ _ :=
    ⟨rfl, fun _ => rfl⟩
  trans first second :=
    ⟨second.around.trans first.around,
      fun undeclared => (second.own undeclared).trans (first.own undeclared)⟩
  mono wide keeps :=
    ⟨keeps.around, fun undeclared => keeps.own fun isDeclared => undeclared (wide isDeclared)⟩
  assign differs assigns := by
    have same := bindingsOf_of_assign? (Ne.symm differs) assigns
    exact ⟨congrArg List.tail same, fun _ => same⟩
  define declared value _ chain := by
    by_cases same : name = declared
    · rw [← same]
      refine ⟨?_, fun undeclared => absurd (List.mem_singleton_self name) undeclared⟩
      rw [bindingsOf_define_self, List.tail_cons]
    · have kept := bindingsOf_define_of_ne same value chain
      exact ⟨congrArg List.tail kept, fun _ => kept⟩
  leave := by
    intro declared depth before inner keeps
    have same : inner.leave.bindingsOf name = before.bindingsOf name := by
      rw [bindingsOf_leave, keeps.around, bindingsOf_enter, List.tail_cons]
    exact ⟨congrArg List.tail same, fun _ => same⟩

end Chain

namespace Stmt

variable {depth : Nat}

/-- In chains that agree on the names that occur in it, a statement ends alike. -/
theorem exec_of_agreeOn
    (policy : Policy)
    (statement : Stmt)
    {first second : Chain depth}
    (agree : first.AgreeOn statement.names second)
    (lines : List Line) :
    let ending := statement.exec policy { chain := first, lines }
    let otherEnding := statement.exec policy { chain := second, lines }
    ending.1 = otherEnding.1 ∧
      ending.2.lines = otherEnding.2.lines ∧
        ending.2.chain.AgreeOn statement.names otherEnding.2.chain := by
  have pairs :
      World.Pairs (fun _ {_ _} first second => first.AgreeOn statement.names second) 0
        { chain := first, lines } { chain := second, lines } :=
    ⟨agree, rfl⟩
  obtain ⟨sameOutcome, agreeStill, sameLines⟩ :=
    (Chain.keepsRelation_agreeOn statement.names).exec policy statement (List.Subset.refl _)
      (fun _ => statement.openNames_subset_names) pairs
  exact ⟨sameOutcome, sameLines, agreeStill⟩

/-- A statement keeps the entries of a name that it neither assigns to nor declares openly. -/
theorem bindingsOf_exec
    (policy : Policy)
    {statement : Stmt}
    {name : String}
    (unassigned : name ∉ statement.assignedNames)
    (undeclared : name ∉ statement.openNames)
    (world : World depth) :
    (statement.exec policy world).2.chain.bindingsOf name = world.chain.bindingsOf name := by
  have others : ∀ other ∈ statement.assignedNames, other ≠ name := by
    rintro other isAssigned rfl
    exact unassigned isAssigned
  exact ((Chain.followsChanges_keeps name).exec policy statement others world).own undeclared

/-- With enough rounds, a statement comes to an end. -/
def Terminates
    (echo : Bool)
    (statement : Stmt)
    (world : World depth) :
    Prop :=
  ∃ rounds, (statement.exec { echo, rounds } world).1 ≠ .exhausted

/--
A statement depends on and changes only the names that it mentions.  In two chains
whose scopes bind the names that occur in it alike it ends alike: with the same
outcome and lines, or in neither, and the scopes still bind those names alike.  In
each of the runs every scope keeps what it binds a name to, or that it does not bind
it, unless the statement assigns to the name or declares it outside its blocks.
-/
theorem exec_depends_on_its_names
    (statement : Stmt)
    {first second : Chain depth}
    (agree : first.AgreeOn statement.names second)
    (lines : List Line) :
    (∀ echo,
        statement.Terminates echo { chain := first, lines } ↔
          statement.Terminates echo { chain := second, lines }) ∧
      ∀ policy : Policy,
        let ending := statement.exec policy { chain := first, lines }
        let otherEnding := statement.exec policy { chain := second, lines }
        ending.1 = otherEnding.1 ∧
          ending.2.lines = otherEnding.2.lines ∧
            ending.2.chain.AgreeOn statement.names otherEnding.2.chain ∧
              ∀ name, name ∉ statement.assignedNames → name ∉ statement.openNames →
                ending.2.chain.bindingsOf name = first.bindingsOf name ∧
                  otherEnding.2.chain.bindingsOf name = second.bindingsOf name := by
  have alike (policy : Policy) := statement.exec_of_agreeOn policy agree lines
  constructor
  · intro echo
    exact exists_congr fun rounds => by rw [(alike { echo, rounds }).1]
  · intro policy
    obtain ⟨sameOutcome, sameLines, agreeStill⟩ := alike policy
    refine ⟨sameOutcome, sameLines, agreeStill, fun name unassigned undeclared => ?_⟩
    constructor
    · exact bindingsOf_exec policy unassigned undeclared { chain := first, lines }
    · exact bindingsOf_exec policy unassigned undeclared { chain := second, lines }

/-- The block `{ print x; var y; y = x; x = nil; }`. -/
def clearsX : Stmt :=
  let named (lexeme : String) : Token :=
    { kind := .identifier, lexeme, literal := .nil, line := 1 }
  .block
    [.print (.lookup (named "x")),
      .declare (named "y") none,
      .expression (.assign (named "y") (.lookup (named "x"))),
      .expression (.assign (named "x") (.literal .nil))]

/-- Scopes of which the innermost binds a given name, and the next one `x`. -/
def aroundX
    (name : String) :
    Chain 2 :=
  .nested ((∅ : Scope).insert name .nil)
    (.nested ((∅ : Scope).insert "x" (.bool true)) (.globals ∅))

/--
Scopes that bind `v` or `w` agree on the names of the block, which changes the next
scope alike in both and keeps the other names apart.
-/
theorem exec_depends_on_its_names_clearsX :
    (aroundX "v").AgreeOn clearsX.names (aroundX "w") ∧
      let ending := clearsX.exec {} { chain := aroundX "v", lines := [] }
      let otherEnding := clearsX.exec {} { chain := aroundX "w", lines := [] }
      ending.2.lines = [.printed "true"] ∧
        ending.2.chain.bindingsOf "x" = [none, some .nil, none] ∧
          ending.1 = otherEnding.1 ∧
            ending.2.lines = otherEnding.2.lines ∧
              ending.2.chain.AgreeOn clearsX.names otherEnding.2.chain ∧
                ending.2.chain.bindingsOf "v" = [some .nil, none, none] ∧
                  otherEnding.2.chain.bindingsOf "v" = [none, none, none] := by
  have agree : (aroundX "v").AgreeOn clearsX.names (aroundX "w") := by
    unfold Chain.AgreeOn
    decide +kernel
  obtain ⟨_, alike⟩ := exec_depends_on_its_names clearsX agree []
  obtain ⟨sameOutcome, sameLines, agreeStill, kept⟩ := alike {}
  obtain ⟨keptFirst, keptSecond⟩ := kept "v" (by decide +kernel) (by decide +kernel)
  refine ⟨agree, by decide +kernel, by decide +kernel, sameOutcome, sameLines, agreeStill, ?_, ?_⟩
  · rw [keptFirst]
    decide +kernel
  · rw [keptSecond]
    decide +kernel

end Stmt

end BlockScript
