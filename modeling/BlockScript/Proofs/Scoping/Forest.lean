import BlockScript.Scope.Forest

namespace BlockScript

/-!
# What a forest consists of

A forest is described by the number of its scopes, the scope around each of them and
the bindings of each.  Opening a scope adds one that binds nothing, and a
declaration changes the bindings of one scope.  The way outward depends only on the
scopes around scopes, and it comes to an end because each scope was opened after the
scope around it.
-/

namespace Forest

/-- The scope around a scope. -/
def enclosing?
    (forest : Forest)
    (scope : Nat) :
    Option Nat :=
  forest.scopes[scope]?.bind ForestScope.enclosing

/-- Each scope was opened after the scope around it. -/
def IsSound
    (forest : Forest) :
    Prop :=
  ∀ scope outer, forest.enclosing? scope = some outer → outer < scope

section Views

variable (forest : Forest)

/-- Opening a scope adds one. -/
@[simp]
theorem size_openScope
    (enclosing : Option Nat) :
    (forest.openScope enclosing).size = forest.size + 1 := by
  simp [openScope, size]

/-- The scope that is opened lies where it was asked to, the others stay where they are. -/
theorem enclosing?_openScope
    (enclosing : Option Nat)
    (scope : Nat) :
    (forest.openScope enclosing).enclosing? scope =
      if scope = forest.size then enclosing else forest.enclosing? scope := by
  unfold enclosing? openScope size
  rw [Array.getElem?_push]
  split <;> rfl

/-- A scope that is opened binds nothing. -/
@[simp]
theorem bindings_openScope
    (enclosing : Option Nat)
    (scope : Nat) :
    (forest.openScope enclosing).bindings scope = forest.bindings scope := by
  unfold bindings openScope
  rw [Array.getElem?_push]
  by_cases isNew : scope = forest.scopes.size
  · simp [isNew]
  · simp only [isNew, ↓reduceIte]

/-- A scope that has not been opened binds nothing. -/
theorem bindings_of_size_le
    {forest : Forest}
    {scope : Nat}
    (notOpen : forest.size ≤ scope) :
    forest.bindings scope = ∅ := by
  unfold bindings
  rw [Array.getElem?_eq_none notOpen]

/-- A declaration opens no scope. -/
@[simp]
theorem size_define
    (scope : Nat)
    (name : String)
    (value : Value) :
    (forest.define scope name value).size = forest.size := by
  simp [define, size]

/-- A declaration moves no scope. -/
@[simp]
theorem enclosing?_define
    (scope : Nat)
    (name : String)
    (value : Value)
    (other : Nat) :
    (forest.define scope name value).enclosing? other = forest.enclosing? other := by
  unfold enclosing? define
  rw [Array.getElem?_modify]
  split
  · cases forest.scopes[other]? <;> rfl
  · rfl

variable {forest} {scope : Nat}

/-- A declaration binds its name in its scope. -/
theorem bindings_define_self
    (opened : scope < forest.size)
    (name : String)
    (value : Value) :
    (forest.define scope name value).bindings scope =
      (forest.bindings scope).insert name value := by
  have found : forest.scopes[scope]? = some forest.scopes[scope] :=
    Array.getElem?_eq_getElem opened
  simp [bindings, define, Array.getElem?_modify, found]

/-- A declaration keeps the bindings of the other scopes. -/
theorem bindings_define_of_ne
    {other : Nat}
    (differs : other ≠ scope)
    (name : String)
    (value : Value) :
    (forest.define scope name value).bindings other = forest.bindings other := by
  simp [bindings, define, Array.getElem?_modify, Ne.symm differs]

/-- A scope inside another one has been opened. -/
theorem lt_size_of_enclosing?
    {outer : Nat}
    (enclosed : forest.enclosing? scope = some outer) :
    scope < forest.size := by
  obtain ⟨found, isFound, _⟩ := Option.bind_eq_some_iff.mp enclosed
  exact (Array.getElem?_eq_some_iff.mp isFound).1

/-- A scope that is opened inside an earlier one leaves a sound forest. -/
theorem IsSound.openScope
    (sound : forest.IsSound)
    (isOpen : scope < forest.size) :
    (forest.openScope (some scope)).IsSound := by
  intro other outer enclosed
  rw [enclosing?_openScope] at enclosed
  split at enclosed
  · rename_i isNew
    cases enclosed
    exact isNew ▸ isOpen
  · exact sound other outer enclosed

end Views

section Ways

variable {forest : Forest} {scope outer : Nat}

/-- The way outward from a scope begins there and goes on in the scope around. -/
theorem path_of_lt_size
    (opened : scope < forest.size) :
    forest.path scope =
      scope ::
        match forest.enclosing? scope with
        | some outer => if outer < scope then forest.path outer else []
        | none => [] := by
  have found : forest.scopes[scope]? = some forest.scopes[scope] :=
    Array.getElem?_eq_getElem opened
  rw [path, found]
  simp only [enclosing?, found, Option.bind_some]
  cases forest.scopes[scope].enclosing with
  | none => rfl
  | some outer =>
      by_cases earlier : outer < scope <;> simp only [earlier, ↓reduceIte]

/-- The way outward ends in a scope inside none. -/
theorem path_of_outermost
    (opened : scope < forest.size)
    (outermost : forest.enclosing? scope = none) :
    forest.path scope = [scope] := by
  rw [path_of_lt_size opened, outermost]

/-- The way outward goes on in the scope around, which was opened before. -/
theorem path_of_enclosed
    (enclosed : forest.enclosing? scope = some outer)
    (earlier : outer < scope) :
    forest.path scope = scope :: forest.path outer := by
  rw [path_of_lt_size (lt_size_of_enclosing? enclosed), enclosed]
  simp only [earlier, ↓reduceIte]

/-- The way outward goes to scopes that were opened before. -/
theorem le_of_mem_path
    {around : Nat}
    (onPath : around ∈ forest.path scope) :
    around ≤ scope := by
  fun_induction forest.path scope with
  | case1 => cases onPath
  | case2 => exact Nat.le_of_eq (List.mem_singleton.mp onPath)
  | case3 scope found isFound outer isAround earlier inductionHypothesis =>
      rcases List.mem_cons.mp onPath with rfl | further
      · exact Nat.le_refl _
      · exact Nat.le_trans (inductionHypothesis further) (Nat.le_of_lt earlier)
  | case4 => exact Nat.le_of_eq (List.mem_singleton.mp onPath)

/-- A scope that binds a name is the nearest that does. -/
theorem nearest?_of_contains
    (isOpen : scope < forest.size)
    {name : String}
    (binds : (forest.bindings scope).contains name = true) :
    forest.nearest? scope name = some scope := by
  rw [nearest?, path_of_lt_size isOpen, List.find?_cons]
  simp only [binds]

/-- Behind a scope inside none there is none that binds a name. -/
theorem nearest?_of_outermost
    (isOpen : scope < forest.size)
    (outermost : forest.enclosing? scope = none)
    {name : String}
    (unbound : (forest.bindings scope).contains name = false) :
    forest.nearest? scope name = none := by
  rw [nearest?, path_of_outermost isOpen outermost, List.find?_cons]
  simp only [unbound, List.find?_nil]

/-- A name that a scope does not bind is looked for in the scope around. -/
theorem nearest?_of_enclosed
    (enclosed : forest.enclosing? scope = some outer)
    (earlier : outer < scope)
    {name : String}
    (unbound : (forest.bindings scope).contains name = false) :
    forest.nearest? scope name = forest.nearest? outer name := by
  rw [nearest?, path_of_enclosed enclosed earlier, List.find?_cons]
  simp only [unbound, nearest?]

/-- The way outward depends only on the scopes around scopes. -/
theorem path_congr
    {before after : Forest}
    (larger : before.size ≤ after.size)
    (same : ∀ other < before.size, after.enclosing? other = before.enclosing? other)
    (opened : scope < before.size) :
    after.path scope = before.path scope := by
  induction scope using Nat.strongRecOn with
  | ind scope inductionHypothesis =>
      rw [path_of_lt_size opened, path_of_lt_size (Nat.lt_of_lt_of_le opened larger),
        same scope opened]
      cases before.enclosing? scope with
      | none => rfl
      | some outer =>
          by_cases earlier : outer < scope
          · simp only [earlier, ↓reduceIte]
            rw [inductionHypothesis outer earlier (Nat.lt_trans earlier opened)]
          · simp only [earlier, ↓reduceIte]

end Ways

end Forest

end BlockScript
