import BlockScript.Value
import Std.Data.TreeMap

namespace BlockScript

/-!
# Scopes and scope chains

A scope binds names to values.  While a program runs, its scopes form a chain:
the global scope with the scopes of the blocks that have been entered, each
nested in the one before.  The depth of a chain is part of its type, so that
leaving a block is only possible after entering one, and nothing but entering
and leaving changes the depth.
-/

/-- The bindings of one scope, ordered by name. -/
abbrev Scope := Std.TreeMap String Value

/-- The global scope with `depth` scopes nested in it, the innermost first. -/
inductive Chain : Nat → Type where
  | globals (scope : Scope) : Chain 0
  | nested {depth : Nat} (scope : Scope) (enclosing : Chain depth) : Chain (depth + 1)

namespace Chain

/-- The value of a name in the nearest scope that binds it. -/
def get?
    (name : String) :
    {depth : Nat} → Chain depth → Option Value
  | _, .globals scope => scope[name]?
  | _, .nested scope enclosing =>
      match scope[name]? with
      | some value => some value
      | none => enclosing.get? name

/-- Bind a name in the innermost scope, over an earlier binding of the same scope. -/
def define
    (name : String)
    (value : Value) :
    {depth : Nat} → Chain depth → Chain depth
  | _, .globals scope => .globals (scope.insert name value)
  | _, .nested scope enclosing => .nested (scope.insert name value) enclosing

/-- Change the value of a name in the nearest scope that binds it; no scope gains a name. -/
def assign?
    (name : String)
    (value : Value) :
    {depth : Nat} → Chain depth → Option (Chain depth)
  | _, .globals scope =>
      if scope.contains name then
        some (.globals (scope.insert name value))
      else
        none
  | _, .nested scope enclosing =>
      if scope.contains name then
        some (.nested (scope.insert name value) enclosing)
      else
        (enclosing.assign? name value).map (.nested scope)

/-- Enter a block: nest an empty scope. -/
def enter
    {depth : Nat}
    (chain : Chain depth) :
    Chain (depth + 1) :=
  .nested ∅ chain

/-- Leave a block: drop the innermost scope. -/
def leave
    {depth : Nat} :
    Chain (depth + 1) → Chain depth
  | .nested _ enclosing => enclosing

/-- The global scope when no block has been entered. -/
def globalScope : Chain 0 → Scope
  | .globals scope => scope

end Chain

end BlockScript
