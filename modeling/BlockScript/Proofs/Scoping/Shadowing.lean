import BlockScript.Proofs.Scoping.Forest

namespace BlockScript

/-!
# Shadowing among shared scopes

A forest is asked to open scopes and to declare, assign and look up names in any of
them.  What a name means in a scope can be read off the requests alone: the nearest
scope on the way outward in which the name was declared has it, and its value is the
one that was last written there, by a declaration in that scope or by an assignment
from any scope for which it was the nearest.

The forest answers as its history says.  So an assignment is seen from every scope
that shares the nearest scope with the name, and a declaration cuts off the scopes
for which it is the nearest then.
-/

/-- A request to a forest. -/
inductive ScopeRequest where
  /-- Open a scope inside another one, or inside none. -/
  | openIn (enclosing : Option Nat)
  | define (scope : Nat) (name : String) (value : Value)
  | assign (scope : Nat) (name : String) (value : Value)
  | get (scope : Nat) (name : String)

/-- The scope that a request speaks of. -/
def ScopeRequest.scope? : ScopeRequest → Option Nat
  | .openIn enclosing => enclosing
  | .define scope _ _ => some scope
  | .assign scope _ _ => some scope
  | .get scope _ => some scope

/-- Requests to a forest, the last one first. -/
abbrev ScopeHistory := List ScopeRequest

namespace Forest

/-- The forest after a request; an assignment that fails and a look-up leave it as it is. -/
def perform
    (forest : Forest) :
    ScopeRequest → Forest
  | .openIn enclosing => forest.openScope enclosing
  | .define scope name value => forest.define scope name value
  | .assign scope name value => (forest.assign? scope name value).getD forest
  | .get _ _ => forest

/-- The forest after a history. -/
def after : ScopeHistory → Forest
  | [] => .empty
  | last :: past => (after past).perform last

end Forest

/-! ## What a history says -/

namespace ScopeHistory

/-- How many scopes have been opened. -/
def opened : ScopeHistory → Nat
  | [] => 0
  | .openIn _ :: past => opened past + 1
  | _ :: past => opened past

/-- The scope in which a scope was opened. -/
def enclosing? : ScopeHistory → Nat → Option Nat
  | [], _ => none
  | .openIn enclosing :: past, scope =>
      if scope = opened past then enclosing else enclosing? past scope
  | _ :: past, scope => enclosing? past scope

/-- Each request speaks of a scope that had been opened. -/
def IsPossible : ScopeHistory → Prop
  | [] => True
  | last :: past => (∀ scope ∈ last.scope?, scope < opened past) ∧ IsPossible past

/-- A scope has a name that was declared in it. -/
def Has
    (past : ScopeHistory)
    (scope : Nat)
    (name : String) :
    Prop :=
  ∃ value, .define scope name value ∈ past

/-- The scopes on the way outward from a scope. -/
inductive WalksOut
    (past : ScopeHistory) :
    Nat → List Nat → Prop where
  | ends
      {scope : Nat}
      (outermost : enclosing? past scope = none) :
      WalksOut past scope [scope]
  | outward
      {scope outer : Nat}
      {further : List Nat}
      (enclosed : enclosing? past scope = some outer)
      (walks : WalksOut past outer further) :
      WalksOut past scope (scope :: further)

/-- The nearest scope, on the way outward from a scope, that has a name. -/
inductive Nearest
    (past : ScopeHistory)
    (name : String) :
    Nat → Nat → Prop where
  | here
      {scope : Nat}
      (has : Has past scope name) :
      Nearest past name scope scope
  | outward
      {scope outer nearest : Nat}
      (lacks : ¬ Has past scope name)
      (enclosed : enclosing? past scope = some outer)
      (further : Nearest past name outer nearest) :
      Nearest past name scope nearest

/-- The same scope is the nearest that has a name from both scopes. -/
def ShareNearest
    (past : ScopeHistory)
    (name : String)
    (scope other : Nat) :
    Prop :=
  ∃ nearest, Nearest past name scope nearest ∧ Nearest past name other nearest

/-- A request writes a value to a name that a scope has. -/
inductive Writes
    (past : ScopeHistory) :
    ScopeRequest → Nat → String → Value → Prop where
  | define
      (scope : Nat)
      (name : String)
      (value : Value) :
      Writes past (.define scope name value) scope name value
  | assign
      {scope nearest : Nat}
      {name : String}
      (isNearest : Nearest past name scope nearest)
      (value : Value) :
      Writes past (.assign scope name value) nearest name value

/-- The value that was written last to a name of a scope. -/
inductive LastWritten : ScopeHistory → Nat → String → Value → Prop where
  | now
      {last : ScopeRequest}
      {past : ScopeHistory}
      {scope : Nat}
      {name : String}
      {value : Value}
      (writes : Writes past last scope name value) :
      LastWritten (last :: past) scope name value
  | before
      {last : ScopeRequest}
      {past : ScopeHistory}
      {scope : Nat}
      {name : String}
      {value : Value}
      (unwritten : ∀ other, ¬ Writes past last scope name other)
      (written : LastWritten past scope name value) :
      LastWritten (last :: past) scope name value

variable {past : ScopeHistory} {last : ScopeRequest} {scope other : Nat} {name asked : String}

/-- Only a declaration gives a scope a name. -/
theorem has_cons :
    Has (last :: past) scope name ↔
      (∃ value, last = .define scope name value) ∨ Has past scope name := by
  simp only [Has, List.mem_cons, exists_or, eq_comm]

/-- What was written last, by whether the last request wrote it. -/
theorem lastWritten_cons
    {value : Value} :
    LastWritten (last :: past) scope name value ↔
      Writes past last scope name value ∨
        (∀ other, ¬ Writes past last scope name other) ∧ LastWritten past scope name value := by
  constructor
  · intro written
    cases written with
    | now writes => exact .inl writes
    | before unwritten written => exact .inr ⟨unwritten, written⟩
  · rintro (writes | ⟨unwritten, written⟩)
    · exact .now writes
    · exact .before unwritten written

/-- Scopes stay open. -/
theorem opened_le_cons
    (last : ScopeRequest)
    (past : ScopeHistory) :
    opened past ≤ opened (last :: past) := by
  cases last with
  | openIn enclosing => exact Nat.le_succ _
  | _ => exact Nat.le_refl _

/-- Names are declared in scopes that have been opened. -/
theorem lt_opened_of_has
    (possible : IsPossible past)
    (has : Has past scope name) :
    scope < opened past := by
  induction past with
  | nil =>
      obtain ⟨value, isPast⟩ := has
      cases isPast
  | cons last past inductionHypothesis =>
      refine Nat.lt_of_lt_of_le ?_ (opened_le_cons last past)
      rcases has_cons.mp has with ⟨value, rfl⟩ | before
      · exact possible.1 scope rfl
      · exact inductionHypothesis possible.2 before

/-- A scope lies in one that was opened before it. -/
theorem lt_of_enclosing?
    (possible : IsPossible past)
    {outer : Nat}
    (enclosed : enclosing? past scope = some outer) :
    outer < scope := by
  induction past with
  | nil => cases enclosed
  | cons last past inductionHypothesis =>
      cases last with
      | openIn enclosing =>
          rw [enclosing?] at enclosed
          split at enclosed
          · rename_i isLast
            rw [isLast]
            exact possible.1 outer enclosed
          · exact inductionHypothesis possible.2 enclosed
      | _ => exact inductionHypothesis possible.2 enclosed

namespace Nearest

variable {nearest : Nat}

/-- The nearest scope has the name. -/
theorem has
    (isNearest : Nearest past name scope nearest) :
    Has past nearest name := by
  induction isNearest with
  | here has => exact has
  | outward _ _ _ inductionHypothesis => exact inductionHypothesis

/-- The nearest scopes are the same where scopes lie in the same scopes and have the same names. -/
theorem congr
    {later : ScopeHistory}
    (sameEnclosing : ∀ scope, enclosing? later scope = enclosing? past scope)
    (sameHas : ∀ scope, Has later scope name ↔ Has past scope name) :
    Nearest later name scope nearest ↔ Nearest past name scope nearest := by
  constructor
  · intro isNearest
    induction isNearest with
    | here has => exact .here ((sameHas _).mp has)
    | outward lacks enclosed _ inductionHypothesis =>
        exact .outward (mt (sameHas _).mpr lacks) ((sameEnclosing _).symm.trans enclosed)
          inductionHypothesis
  · intro isNearest
    induction isNearest with
    | here has => exact .here ((sameHas _).mpr has)
    | outward lacks enclosed _ inductionHypothesis =>
        exact .outward (mt (sameHas _).mp lacks) ((sameEnclosing _).trans enclosed)
          inductionHypothesis

/-- There is at most one nearest scope. -/
theorem unique
    {second : Nat}
    (isNearest : Nearest past name scope nearest)
    (alsoNearest : Nearest past name scope second) :
    nearest = second := by
  induction isNearest with
  | here has =>
      cases alsoNearest with
      | here => rfl
      | outward lacks => exact absurd has lacks
  | outward lacks enclosed _ inductionHypothesis =>
      cases alsoNearest with
      | here has => exact absurd has lacks
      | outward _ alsoEnclosed further =>
          rw [enclosed] at alsoEnclosed
          cases alsoEnclosed
          exact inductionHypothesis further

end Nearest

/-- An assignment moves no scope and gives none a name, so that nearest scopes stay nearest. -/
theorem nearest_assign
    {value : Value}
    {nearest : Nat} :
    Nearest (.assign scope name value :: past) asked other nearest ↔
      Nearest past asked other nearest :=
  Nearest.congr (fun _ => rfl) fun _ => by simp [has_cons]

/-- Where the scope of a declaration does not become the nearest, the nearest scope stays. -/
theorem nearest_define
    {value : Value}
    {nearest : Nat}
    (elsewhere :
      ¬ (asked = name ∧ Nearest (.define scope name value :: past) name other scope)) :
    Nearest (.define scope name value :: past) asked other nearest ↔
      Nearest past asked other nearest := by
  have has_define (around : Nat) :
      Has (.define scope name value :: past) around asked ↔
        scope = around ∧ name = asked ∨ Has past around asked := by
    simp [has_cons]
  -- If the way outward came by the new declaration, its scope would be the nearest from there on.
  constructor
  · intro isNearest
    induction isNearest with
    | here has =>
        rcases (has_define _).mp has with ⟨rfl, rfl⟩ | hasAlready
        · exact absurd ⟨rfl, .here has⟩ elsewhere
        · exact .here hasAlready
    | outward lacks enclosed _ inductionHypothesis =>
        refine .outward (fun had => lacks ((has_define _).mpr (.inr had))) enclosed ?_
        refine inductionHypothesis fun ⟨same, further⟩ => elsewhere ⟨same, ?_⟩
        exact .outward (same ▸ lacks) enclosed further
  · intro isNearest
    induction isNearest with
    | here has => exact .here ((has_define _).mpr (.inr has))
    | @outward around _ _ lacks enclosed _ inductionHypothesis =>
        have lacksStill : ¬ Has (.define scope name value :: past) around asked := by
          intro has
          rcases (has_define _).mp has with ⟨rfl, rfl⟩ | had
          · exact elsewhere ⟨rfl, .here has⟩
          · exact lacks had
        refine .outward lacksStill enclosed ?_
        refine inductionHypothesis fun ⟨same, further⟩ => elsewhere ⟨same, ?_⟩
        exact .outward (same ▸ lacksStill) enclosed further

end ScopeHistory

open ScopeHistory

/-! ## What a forest records -/

namespace Forest

/-- A forest whose scopes are what a history says. -/
structure Records
    (past : ScopeHistory)
    (forest : Forest) :
    Prop where
  size : forest.size = opened past
  enclosing? : ∀ scope, forest.enclosing? scope = ScopeHistory.enclosing? past scope
  names : ∀ scope name, name ∈ forest.bindings scope ↔ Has past scope name
  values :
    ∀ scope name value,
      (forest.bindings scope)[name]? = some value ↔ LastWritten past scope name value

variable {past : ScopeHistory} {forest : Forest} {scope : Nat} {name : String}

/-- The way outward has a finite number of scopes. -/
theorem Records.walksOut
    (records : forest.Records past)
    (possible : IsPossible past)
    (isOpen : scope < opened past) :
    WalksOut past scope (forest.path scope) := by
  induction scope using Nat.strongRecOn with
  | ind scope inductionHypothesis =>
      have around := records.enclosing? scope
      cases enclosed : ScopeHistory.enclosing? past scope with
      | none =>
          rw [path_of_outermost (records.size ▸ isOpen) (around.trans enclosed)]
          exact .ends enclosed
      | some outer =>
          have earlier := lt_of_enclosing? possible enclosed
          rw [path_of_enclosed (around.trans enclosed) earlier]
          exact .outward enclosed
            (inductionHypothesis outer earlier (Nat.lt_trans earlier isOpen))


/-- The nearest scope is the first on the way outward that has the name. -/
theorem find?_eq_some_iff_nearest
    {path : List Nat}
    (walks : WalksOut past scope path)
    {test : Nat → Bool}
    (tests : ∀ around, test around = true ↔ Has past around name)
    {nearest : Nat} :
    path.find? test = some nearest ↔ Nearest past name scope nearest := by
  induction walks with
  | @ends scope outermost =>
      constructor
      · intro found
        rw [← List.mem_singleton.mp (List.mem_of_find?_eq_some found)]
        exact .here ((tests nearest).mp (List.find?_some found))
      · intro isNearest
        cases isNearest with
        | here has => rw [List.find?_cons_of_pos ((tests nearest).mpr has)]
        | outward _ enclosed =>
            rw [outermost] at enclosed
            cases enclosed
  | @outward scope outer further enclosed _ inductionHypothesis =>
      by_cases has : Has past scope name
      · rw [List.find?_cons_of_pos ((tests scope).mpr has), Option.some_inj]
        constructor
        · rintro rfl
          exact .here has
        · exact (Nearest.here has).unique
      · rw [List.find?_cons_of_neg (mt (tests scope).mp has), inductionHypothesis]
        constructor
        · exact .outward has enclosed
        · intro isNearest
          cases isNearest with
          | here hasIt => exact absurd hasIt has
          | outward _ alsoEnclosed nearer =>
              rw [enclosed] at alsoEnclosed
              cases alsoEnclosed
              exact nearer

/-- A forest finds the nearest scope that has a name. -/
theorem Records.nearest?_eq_some_iff
    (records : forest.Records past)
    (possible : IsPossible past)
    (isOpen : scope < opened past)
    {nearest : Nat} :
    forest.nearest? scope name = some nearest ↔ Nearest past name scope nearest :=
  find?_eq_some_iff_nearest (records.walksOut possible isOpen) fun around =>
    Std.TreeMap.contains_iff_mem.trans (records.names around name)

namespace Records

variable {last : ScopeRequest}

/-- A request that neither opens a scope nor writes leaves a forest that records it. -/
theorem keep
    (records : forest.Records past)
    (sameOpened : opened (last :: past) = opened past)
    (sameEnclosing :
      ∀ scope, ScopeHistory.enclosing? (last :: past) scope = ScopeHistory.enclosing? past scope)
    (unwritten : ∀ scope name value, ¬ Writes past last scope name value) :
    forest.Records (last :: past) where
  size := records.size.trans sameOpened.symm
  enclosing? scope := (records.enclosing? scope).trans (sameEnclosing scope).symm
  names scope name := by
    rw [records.names, has_cons, or_iff_right]
    rintro ⟨value, rfl⟩
    exact unwritten scope name value (.define scope name value)
  values scope name value := by
    rw [records.values, lastWritten_cons, or_iff_right (unwritten scope name value)]
    exact (and_iff_right (unwritten scope name)).symm

/-- A request that writes to a scope is recorded by a binding of that scope. -/
theorem write
    (records : forest.Records past)
    (sameOpened : opened (last :: past) = opened past)
    (sameEnclosing :
      ∀ scope, ScopeHistory.enclosing? (last :: past) scope = ScopeHistory.enclosing? past scope)
    {target : Nat}
    {name : String}
    {value : Value}
    (isOpen : target < opened past)
    (has :
      ∀ scope asked,
        Has (last :: past) scope asked ↔ scope = target ∧ asked = name ∨ Has past scope asked)
    (writes :
      ∀ scope asked other,
        Writes past last scope asked other ↔ (scope = target ∧ asked = name) ∧ other = value) :
    (forest.define target name value).Records (last :: past) where
  size := by
    rw [size_define, records.size, sameOpened]
  enclosing? scope := by
    rw [enclosing?_define, records.enclosing?, sameEnclosing]
  names scope asked := by
    rw [has, ← records.names]
    by_cases same : scope = target
    · rw [same, bindings_define_self (records.size ▸ isOpen), Std.TreeMap.mem_insert,
        Std.LawfulEqCmp.compare_eq_iff_eq, eq_comm, and_iff_right rfl]
    · rw [bindings_define_of_ne same, or_iff_right (fun both => same both.1)]
  values scope asked other := by
    rw [lastWritten_cons, ← records.values, writes]
    simp only [writes]
    by_cases same : scope = target
    · rw [same, bindings_define_self (records.size ▸ isOpen), Std.TreeMap.getElem?_insert]
      by_cases sameName : asked = name
      · simp [sameName, eq_comm]
      · simp [sameName, Ne.symm sameName]
    · rw [bindings_define_of_ne same]
      simp [same]

/-- A declaration is recorded in its scope. -/
theorem define
    (records : forest.Records past)
    (isOpen : scope < opened past)
    (name : String)
    (value : Value) :
    (forest.define scope name value).Records (.define scope name value :: past) := by
  refine records.write rfl (fun _ => rfl) isOpen ?_ ?_
  · intro around asked
    rw [has_cons]
    simp [eq_comm]
  · intro around asked other
    constructor
    · intro writes
      cases writes
      exact ⟨⟨rfl, rfl⟩, rfl⟩
    · rintro ⟨⟨rfl, rfl⟩, rfl⟩
      exact .define around asked other

/-- An assignment is recorded in the nearest scope that has its name, if there is one. -/
theorem assign
    (records : forest.Records past)
    (possible : IsPossible past)
    (isOpen : scope < opened past)
    (name : String)
    (value : Value) :
    ((forest.assign? scope name value).getD forest).Records (.assign scope name value :: past) := by
  unfold assign?
  cases found : forest.nearest? scope name with
  | none =>
      refine records.keep rfl (fun _ => rfl) ?_
      intro around asked other writes
      cases writes with
      | assign isNearest =>
          rw [(records.nearest?_eq_some_iff possible isOpen).mpr isNearest] at found
          cases found
  | some nearest =>
      have isNearest := (records.nearest?_eq_some_iff possible isOpen).mp found
      refine records.write rfl (fun _ => rfl) (lt_opened_of_has possible isNearest.has) ?_ ?_
      · intro around asked
        rw [has_cons]
        constructor
        · rintro (⟨_, different⟩ | had)
          · cases different
          · exact .inr had
        · rintro (⟨rfl, rfl⟩ | had)
          · exact .inr isNearest.has
          · exact .inr had
      · intro around asked other
        constructor
        · intro writes
          cases writes with
          | assign alsoNearest => exact ⟨⟨alsoNearest.unique isNearest, rfl⟩, rfl⟩
        · rintro ⟨⟨rfl, rfl⟩, rfl⟩
          exact .assign isNearest other

/-- A scope that is opened is recorded as the next one, without a name. -/
theorem openIn
    (records : forest.Records past)
    (enclosing : Option Nat) :
    (forest.openScope enclosing).Records (.openIn enclosing :: past) where
  size := by
    rw [size_openScope, records.size]
    rfl
  enclosing? scope := by
    rw [enclosing?_openScope, records.size, records.enclosing?]
    rfl
  names scope name := by
    rw [bindings_openScope, records.names, has_cons]
    simp
  values scope name value := by
    have unwritten (other : Value) : ¬ Writes past (.openIn enclosing) scope name other := nofun
    rw [bindings_openScope, records.values, lastWritten_cons, or_iff_right (unwritten value)]
    exact (and_iff_right unwritten).symm

end Records

/-- A forest records its history. -/
theorem records_after
    (possible : IsPossible past) :
    (after past).Records past := by
  induction past with
  | nil =>
      refine ⟨rfl, fun _ => rfl, fun scope name => ?_, fun scope name value => ?_⟩
      · simp [after, empty, bindings, Has]
      · constructor
        · intro bound
          simp [after, empty, bindings] at bound
        · intro written
          cases written
  | cons last past inductionHypothesis =>
      have records := inductionHypothesis possible.2
      have isOpen := possible.1
      cases last with
      | openIn enclosing => exact records.openIn enclosing
      | define scope name value => exact records.define (isOpen scope rfl) name value
      | assign scope name value => exact records.assign possible.2 (isOpen scope rfl) name value
      | get scope name =>
          refine records.keep rfl (fun _ => rfl) ?_
          intro around asked other writes
          cases writes

/-! ## Looking up, assigning and declaring -/

/-- What looking up a name in a scope gives after a history. -/
structure AnswersFrom
    (past : ScopeHistory)
    (forest : Forest)
    (scope : Nat)
    (name : String) :
    Prop where
  /-- A name has the value that was last written to the nearest scope that has it. -/
  some_iff :
    ∀ value,
      forest.get? scope name = some value ↔
        ∃ nearest, Nearest past name scope nearest ∧ LastWritten past nearest name value
  /-- A name is not found exactly when no scope on the way outward has it. -/
  none_iff : forest.get? scope name = none ↔ ∀ around ∈ forest.path scope, ¬ Has past around name

/-- What assigning to a name in a scope does after a history. -/
structure AssignsFrom
    (past : ScopeHistory)
    (forest : Forest)
    (scope : Nat)
    (name : String)
    (value : Value) :
    Prop where
  /-- A name can be assigned to exactly when it is found. -/
  succeeds :
    (forest.assign? scope name value).isSome = (forest.get? scope name).isSome
  /-- The value is seen wherever the same scope is the nearest that has the name. -/
  shared :
    ∀ assigned ∈ forest.assign? scope name value,
      ∀ other < opened past,
        ShareNearest past name scope other → assigned.get? other name = some value
  /-- No other look-up changes. -/
  others :
    ∀ assigned ∈ forest.assign? scope name value,
      ∀ other < opened past,
        ∀ asked,
          ¬ (asked = name ∧ ShareNearest past name scope other) →
          assigned.get? other asked = forest.get? other asked
  /-- No scope gains or loses a name. -/
  names :
    ∀ assigned ∈ forest.assign? scope name value,
      ∀ other asked, asked ∈ assigned.bindings other ↔ asked ∈ forest.bindings other
  /-- An assignment that fails changes nothing. -/
  fails :
    forest.assign? scope name value = none →
      forest.perform (.assign scope name value) = forest

/-- What declaring a name in a scope does after a history. -/
structure DefinesIn
    (past : ScopeHistory)
    (forest : Forest)
    (scope : Nat)
    (name : String)
    (value : Value) :
    Prop where
  /-- The value is seen wherever the scope is then the nearest that has the name. -/
  shadows :
    ∀ other < opened past,
      Nearest (.define scope name value :: past) name other scope →
      (forest.define scope name value).get? other name = some value
  /-- No other look-up changes. -/
  others :
    ∀ other < opened past,
      ∀ asked,
        ¬ (asked = name ∧ Nearest (.define scope name value :: past) name other scope) →
        (forest.define scope name value).get? other asked = forest.get? other asked

/-- A name has a value exactly when there is a nearest scope that has it. -/
theorem isSome_get?
    (forest : Forest)
    (scope : Nat)
    (name : String) :
    (forest.get? scope name).isSome = (forest.nearest? scope name).isSome := by
  unfold get?
  cases found : forest.nearest? scope name with
  | none => rfl
  | some nearest =>
      unfold nearest? at found
      have binds : (forest.bindings nearest).contains name = true :=
        List.find?_some (p := fun candidate => (forest.bindings candidate).contains name) found
      rw [Std.TreeMap.contains_eq_isSome_getElem?] at binds
      simpa using binds

/-- After a history, a look-up gives what was last written to the nearest scope. -/
theorem answersFrom_after
    (possible : IsPossible past)
    (isOpen : scope < opened past)
    (name : String) :
    AnswersFrom past (after past) scope name := by
  have records := records_after possible
  constructor
  · intro value
    simp only [get?, Option.bind_eq_bind, Option.bind_eq_some_iff,
      records.nearest?_eq_some_iff possible isOpen, records.values]
  · rw [← Option.isNone_iff_eq_none, ← Option.not_isSome, isSome_get?, Option.not_isSome,
      Option.isNone_iff_eq_none, nearest?, List.find?_eq_none]
    simp only [Std.TreeMap.contains_iff_mem, records.names]

section Requests

variable {last : ScopeRequest} {other nearest : Nat} {asked : String} {value : Value}

/-- A value that a request writes to the nearest scope is found. -/
theorem get?_after_of_writes
    (possible : IsPossible (last :: past))
    (isOpen : other < opened (last :: past))
    (isNearest : Nearest (last :: past) asked other nearest)
    (writes : Writes past last nearest asked value) :
    (after (last :: past)).get? other asked = some value :=
  ((answersFrom_after possible isOpen asked).some_iff value).mpr ⟨nearest, isNearest, .now writes⟩

/-- A look-up whose nearest scope stays and is not written to gives what it gave. -/
theorem get?_after_of_not_writes
    (possible : IsPossible (last :: past))
    (isOpen : other < opened past)
    (sameNearest :
      ∀ nearest, Nearest (last :: past) asked other nearest ↔ Nearest past asked other nearest)
    (unwritten :
      ∀ nearest value, Nearest past asked other nearest → ¬ Writes past last nearest asked value) :
    (after (last :: past)).get? other asked = (after past).get? other asked := by
  have isOpenStill := Nat.lt_of_lt_of_le isOpen (opened_le_cons last past)
  ext value
  rw [(answersFrom_after possible isOpenStill asked).some_iff,
    (answersFrom_after possible.2 isOpen asked).some_iff]
  refine exists_congr fun nearest => ?_
  rw [sameNearest nearest, lastWritten_cons]
  refine and_congr_right fun isNearest => ?_
  rw [or_iff_right (unwritten nearest value isNearest)]
  exact and_iff_right fun other => unwritten nearest other isNearest

end Requests

/-- After a history, an assignment reaches the scopes that share the nearest scope. -/
theorem assignsFrom_after
    (possible : IsPossible past)
    (isOpen : scope < opened past)
    (name : String)
    (value : Value) :
    AssignsFrom past (after past) scope name value := by
  have possibleStill : IsPossible (.assign scope name value :: past) :=
    ⟨fun _ isScope => Option.some_inj.mp isScope ▸ isOpen, possible⟩
  -- What the assignment leaves is the forest of the longer history, which answers as that says.
  have reached {assigned : Forest}
      (assigns : assigned ∈ (after past).assign? scope name value) :
      assigned = after (.assign scope name value :: past) := by
    rw [after, perform, Option.mem_def.mp assigns, Option.getD_some]
  constructor
  · rw [isSome_get?, assign?, Option.isSome_map]
  · rintro assigned assigns other otherOpen ⟨nearest, isNearest, alsoNearest⟩
    rw [reached assigns]
    exact get?_after_of_writes possibleStill otherOpen (nearest_assign.mpr alsoNearest)
      (.assign isNearest value)
  · intro assigned assigns other otherOpen asked elsewhere
    rw [reached assigns]
    refine get?_after_of_not_writes possibleStill otherOpen (fun _ => nearest_assign) ?_
    intro nearest written alsoNearest writes
    cases writes with
    | assign isNearest => exact elsewhere ⟨rfl, nearest, isNearest, alsoNearest⟩
  · intro assigned assigns other asked
    rw [reached assigns, (records_after possibleStill).names, (records_after possible).names,
      has_cons]
    simp
  · intro unassigned
    rw [perform, unassigned, Option.getD_none]

/-- After a history, a declaration reaches the scopes for which it is the nearest. -/
theorem definesIn_after
    (possible : IsPossible past)
    (isOpen : scope < opened past)
    (name : String)
    (value : Value) :
    DefinesIn past (after past) scope name value := by
  have possibleStill : IsPossible (.define scope name value :: past) :=
    ⟨fun _ isScope => Option.some_inj.mp isScope ▸ isOpen, possible⟩
  have reached :
      (after past).define scope name value = after (.define scope name value :: past) :=
    rfl
  constructor
  · intro other otherOpen isNearest
    rw [reached]
    exact get?_after_of_writes possibleStill otherOpen isNearest (.define scope name value)
  · intro other otherOpen asked elsewhere
    rw [reached]
    refine get?_after_of_not_writes possibleStill otherOpen (fun _ => nearest_define elsewhere) ?_
    intro nearest written isNearest writes
    cases writes with
    | define => exact elsewhere ⟨rfl, (nearest_define elsewhere).mpr isNearest⟩

/--
After every sequence of requests the scopes shadow each other.  From each of them the
way outward comes to an end, a name means what was last written to the nearest scope
that has it, and assignments and declarations change the look-ups from the scopes
that find the name where they write, and no others.
-/
theorem scopes_shadow_each_other
    (possible : IsPossible past) :
    let forest := after past
    ∀ scope < opened past,
      WalksOut past scope (forest.path scope) ∧
        ∀ name,
          AnswersFrom past forest scope name ∧
            forest.perform (.get scope name) = forest ∧
              ∀ value,
                AssignsFrom past forest scope name value ∧
                  DefinesIn past forest scope name value := by
  intro forest scope isOpen
  refine ⟨(records_after possible).walksOut possible isOpen, fun name => ?_⟩
  refine ⟨answersFrom_after possible isOpen name, rfl, fun value => ?_⟩
  exact ⟨assignsFrom_after possible isOpen name value, definesIn_after possible isOpen name value⟩

/--
Two scopes inside a third: one of them assigns to `x`, which the third declares, and
then declares an `x` of its own.
-/
def siblings : ScopeHistory :=
  [.define 1 "x" .nil, .assign 1 "x" (.bool false), .openIn (some 0), .openIn (some 0),
    .define 0 "x" (.bool true), .openIn none]

/-- The other scope sees the assignment; its own one does not reach behind the declaration. -/
theorem scopes_shadow_each_other_siblings :
    IsPossible siblings ∧
      (after siblings).get? 2 "x" = some (.bool false) ∧
        ∃ assigned,
          (after siblings).assign? 2 "x" (.bool true) = some assigned ∧
            assigned.get? 0 "x" = some (.bool true) ∧
              assigned.get? 1 "x" = some .nil := by
  have possible : IsPossible siblings := by
    simp [IsPossible, siblings, ScopeRequest.scope?, opened]
  have own : Nearest siblings "x" 1 1 := .here ⟨.nil, by simp [siblings]⟩
  have common : Nearest siblings "x" 0 0 := .here ⟨.bool true, by simp [siblings]⟩
  have outward : Nearest siblings "x" 2 0 :=
    .outward (by simp [Has, siblings]) rfl common
  have written : LastWritten siblings 0 "x" (.bool false) := by
    refine .before nofun (.now (.assign ?_ (.bool false)))
    exact .outward (by simp [Has]) rfl (.here ⟨.bool true, by simp⟩)
  obtain ⟨_, fromSecond⟩ := scopes_shadow_each_other possible 2 (by decide)
  obtain ⟨answers, _, changes⟩ := fromSecond "x"
  obtain ⟨assigns, _⟩ := changes (.bool true)
  have seen := (answers.some_iff (.bool false)).mpr ⟨0, outward, written⟩
  have succeeds := assigns.succeeds
  rw [seen] at succeeds
  obtain ⟨assigned, isAssigned⟩ := Option.isSome_iff_exists.mp succeeds
  refine ⟨possible, seen, assigned, isAssigned, ?_, ?_⟩
  · exact assigns.shared assigned isAssigned 0 (by decide) ⟨0, outward, common⟩
  · rw [assigns.others assigned isAssigned 1 (by decide) "x"]
    · obtain ⟨_, fromFirst⟩ := scopes_shadow_each_other possible 1 (by decide)
      exact ((fromFirst "x").1.some_iff .nil).mpr ⟨1, own, .now (.define 1 "x" .nil)⟩
    · rintro ⟨_, nearest, fromTwo, fromOne⟩
      have same := (fromTwo.unique outward).symm.trans (fromOne.unique own)
      cases same

end Forest

end BlockScript
