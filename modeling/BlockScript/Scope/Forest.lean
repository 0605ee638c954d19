import BlockScript.Scope.Chain

namespace BlockScript

/-!
# Forests of scopes

Scopes may be opened inside any scope that was opened before, and several inside
the same one.  They form a forest in which every scope is known by the number of
scopes opened before it, so that the way outward from a scope goes to smaller
numbers and comes to an end.
-/

/-- A scope and the number of the scope around it. -/
structure ForestScope where
  enclosing : Option Nat
  bindings : Scope

/-- Scopes in the order in which they were opened. -/
structure Forest where
  scopes : Array ForestScope

namespace Forest

/-- The forest without a scope. -/
def empty : Forest where
  scopes := #[]

/-- The number that the next scope will get. -/
def size
    (forest : Forest) :
    Nat :=
  forest.scopes.size

/-- Open a scope inside another one, or inside none. -/
def openScope
    (enclosing : Option Nat)
    (forest : Forest) :
    Forest where
  scopes :=
    forest.scopes.push { enclosing, bindings := ∅ }

/-- The scopes from a given one outward, that one first. -/
def path
    (forest : Forest)
    (scope : Nat) :
    List Nat :=
  match forest.scopes[scope]? with
  | none => []
  | some found =>
      match found.enclosing with
      | none => [scope]
      | some outer =>
          if outer < scope then
            scope :: forest.path outer
          else
            [scope]
termination_by scope

/-- The bindings of a scope. -/
def bindings
    (forest : Forest)
    (scope : Nat) :
    Scope :=
  match forest.scopes[scope]? with
  | some found => found.bindings
  | none => ∅

/-- The nearest scope that binds a name, from a given scope outward. -/
def nearest?
    (forest : Forest)
    (scope : Nat)
    (name : String) :
    Option Nat :=
  (forest.path scope).find? fun candidate => (forest.bindings candidate).contains name

/-- The value of a name in the nearest scope that binds it. -/
def get?
    (forest : Forest)
    (scope : Nat)
    (name : String) :
    Option Value := do
  let nearest ← forest.nearest? scope name
  (forest.bindings nearest)[name]?

/-- Bind a name in a scope, over an earlier binding of the same scope. -/
def define
    (forest : Forest)
    (scope : Nat)
    (name : String)
    (value : Value) :
    Forest where
  scopes :=
    forest.scopes.modify scope fun found =>
      { found with bindings := found.bindings.insert name value }

/-- Change the value of a name in the nearest scope that binds it; no scope gains a name. -/
def assign?
    (forest : Forest)
    (scope : Nat)
    (name : String)
    (value : Value) :
    Option Forest :=
  (forest.nearest? scope name).map fun nearest => forest.define nearest name value

end Forest

end BlockScript
