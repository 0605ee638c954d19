import BlockScript.Yaml.Library
import BlockScript.Yaml.Value

namespace BlockScript.Yaml

/-!
# Laying a node over a value

A missing field and a null value leave what was there.  Every value of the wrong
type and every unknown key is a fault; a repeated key is one too, and keeps the
mapping that repeats it from being read at all.  All faults are collected in the
order of the document.

The mappings that a mapping merges are read after its own entries, and give only
the fields that have not been given.
-/

/-- What tells the keys of a mapping apart. -/
inductive KeyIdentity where
  | scalar (text : String)
  | sequence
  | mapping
  | alias (name : String)
  deriving Repr, DecidableEq

namespace KeyIdentity

/-- What tells a key apart; collections are all alike. -/
def ofNode : Node → KeyIdentity
  | .scalar _ _ text => .scalar text
  | .sequence .. => .sequence
  | .mapping .. => .mapping
  | .alias _ name _ _ => .alias name

/-- The text of a key in messages. -/
def text : KeyIdentity → String
  | .scalar text => text
  | .sequence => ""
  | .mapping => ""
  | .alias name => name

end KeyIdentity

namespace Node

/-- The line of a node. -/
def line : Node → Nat
  | .scalar line .. => line
  | .sequence line .. => line
  | .mapping line .. => line
  | .alias line .. => line

end Node

/-- The faults of a mapping that repeats keys: one for each pair of equal keys. -/
def repeatedKeys : List (Node × Node) → List DocumentFault
  | [] => []
  | (first, _) :: rest =>
      let identity := KeyIdentity.ofNode first
      let again := rest.filter fun entry => KeyIdentity.ofNode entry.1 = identity
      again.map (fun entry => .repeatedKey entry.1.line identity.text first.line) ++
        repeatedKeys rest

/--
The failure of a node where the named type was expected.  A mapping that repeats keys
fails for that reason instead.
-/
def Failure.ofType
    (expected : String) :
    Node → Failure
  | .scalar line tag written => .mistyped (.wrongType line tag written expected) []
  | .sequence line tag _ => .mistyped (.wrongType line tag "" expected) []
  | .mapping line tag entries =>
      match repeatedKeys entries with
      | [] => .mistyped (.wrongType line tag "" expected) []
      | first :: others => .mistyped first others
  | .alias line .. => .mistyped (.wrongType line .null "" expected) []

namespace SituatedNode

/-- The text that a node gives, unless it is null: a scalar is taken as it was written. -/
def text?
    (typeName : String)
    (situated : SituatedNode) :
    Except Failure (Option String) := do
  let followed := (← situated.follow).node
  match followed with
  | .scalar _ tag written => return (← ScalarValue.ofScalar tag written).asText? written
  | .sequence .. | .mapping .. | .alias .. => throw (.ofType typeName followed)

/-- Lay a node over a text. -/
def text
    (typeName : String)
    (initial : String)
    (situated : SituatedNode) :
    Except Failure String := do
  return (← situated.text? typeName).getD initial

/-- Lay a node over a truth value. -/
def truth
    (initial : Bool)
    (situated : SituatedNode) :
    Except Failure Bool := do
  let followed := (← situated.follow).node
  match followed with
  | .scalar _ tag written =>
      match ← ScalarValue.ofScalar tag written with
      | .null => return initial
      | value =>
          match value.asTruth? with
          | some truth => return truth
          | none => throw (.ofType "bool" followed)
  | .sequence .. | .mapping .. | .alias .. => throw (.ofType "bool" followed)

end SituatedNode

/-- A record over which the entries of a mapping are laid. -/
structure Overlay (α : Type) where
  value : α
  faults : List DocumentFault := []
  /-- The fields that this mapping has given. -/
  given : List String := []
  /-- Among merged mappings, the names that mappings before have used. -/
  used? : Option (List String) := none
  /-- What the mapping merges. -/
  merged? : Option Node := none

namespace Overlay

variable {α : Type}

/-- Add faults to an overlay. -/
def addFaults
    (overlay : Overlay α)
    (faults : List DocumentFault) :
    Overlay α :=
  { overlay with faults := overlay.faults ++ faults }

/-- Whether a mapping before has used a name. -/
def hasUsed
    (overlay : Overlay α)
    (name : String) :
    Bool :=
  overlay.used?.any (·.contains name)

/-- Go on from what was read, and behind faults from what was there. -/
def after
    {β : Type}
    (overlay : Overlay α)
    (read : Except Failure β)
    (next : β → Overlay α) :
    Except Failure (Overlay α) :=
  match read with
  | .ok value => .ok (next value)
  | .error (.mistyped first others) => .ok (overlay.addFaults (first :: others))
  | .error failure => .error failure

/-- Lay the value of a field over a record. -/
def field
    (surroundings : Surroundings)
    (owner : String)
    (field? : FieldReader SituatedNode Failure α)
    (overlay : Overlay α)
    (line : Nat)
    (name : String)
    (node : Node) :
    Except Failure (Overlay α) :=
  match field? name with
  | none => .ok (overlay.addFaults [.unknownField line name owner])
  | some read =>
      if overlay.given.contains name then
        .ok (overlay.addFaults [.repeatedField line name owner])
      else
        let overlay := { overlay with given := name :: overlay.given }
        overlay.after (read overlay.value { node, surroundings }) fun value =>
          { overlay with value }

/-- Whether a key asks for a mapping to be merged. -/
def isMergeKey : Node → Bool
  | .scalar _ .merge "<<" => true
  | _ => false

/--
Lay one entry over a record.  A null key is passed over, and so is a key that is
not a scalar, after a fault.
-/
def entry
    (surroundings : Surroundings)
    (owner : String)
    (field? : FieldReader SituatedNode Failure α)
    (overlay : Overlay α)
    (entry : Node × Node) :
    Except Failure (Overlay α) :=
  if isMergeKey entry.1 then
    .ok { overlay with merged? := some entry.2 }
  else
    let key : SituatedNode := { node := entry.1, surroundings }
    match key.text? "string" with
    | .ok none => .ok overlay
    | .ok (some name) =>
        if overlay.hasUsed name then
          .ok overlay
        else
          let overlay := { overlay with used? := overlay.used?.map (name :: ·) }
          overlay.field surroundings owner field? entry.1.line name entry.2
    | .error (.mistyped first others) => .ok (overlay.addFaults (first :: others))
    | .error failure => .error failure

/-- The keys of a mapping that are texts. -/
def textKeys
    (surroundings : Surroundings)
    (entries : List (Node × Node)) :
    List String :=
  entries.filterMap fun entry =>
    match SituatedNode.follow { node := entry.1, surroundings } with
    | .ok { node := .scalar _ tag written, surroundings := _ } =>
        match ScalarValue.ofScalar tag written with
        | .ok (.text value) => some value
        | _ => none
    | _ => none

/-- The entries of a mapping that is merged, or whose alias is. -/
def mergedEntries
    (situated : SituatedNode) :
    Except Failure (List (Node × Node) × Surroundings) :=
  match situated.node with
  | .mapping _ _ entries => .ok (entries, situated.surroundings)
  | .alias _ _ anchor _ =>
      match situated.surroundings.anchored.lookup anchor with
      | some (.mapping _ _ entries) => do return (entries, (← situated.follow).surroundings)
      | _ => .error (.refused .mergedNoMapping)
  | .sequence .. => .error (.refused .mergedNoMapping)
  | .scalar .. => .error (.refused .mergedNoMapping)

/-- The nodes that a mapping merges, in order. -/
def sources : Node → List Node
  | .sequence _ _ items => items
  | node => [node]

/-- Lay the entries of a mapping over a record, and then those of the mappings that it merges. -/
def entries
    (owner : String)
    (field? : FieldReader SituatedNode Failure α)
    (budget : Nat)
    (surroundings : Surroundings)
    (initial : Overlay α)
    (entries : List (Node × Node)) :
    Except Failure (Overlay α) :=
  match budget with
  | 0 => .ok initial
  | budget + 1 => do
      let repeated := repeatedKeys entries
      if repeated.isEmpty then
        let overlay ←
          entries.foldlM (entry surroundings owner field?)
            { initial with given := [], merged? := none }
        match overlay.merged? with
        | none => return overlay
        | some node =>
            let used := overlay.used?.getD (textKeys surroundings entries)
            (sources node).foldlM
              (fun overlay source => do
                let (list, inside) ← mergedEntries { node := source, surroundings }
                Overlay.entries owner field? budget inside overlay list)
              { overlay with used? := some used }
      else
        return initial.addFaults repeated

/-- The record, unless there were faults. -/
def result
    (overlay : Overlay α) :
    Except Failure α :=
  match overlay.faults with
  | [] => .ok overlay.value
  | first :: others => .error (.mistyped first others)

end Overlay

/-- Lay a node over a record, whose type is named by `owner`. -/
def SituatedNode.record
    {α : Type}
    (owner : String)
    (field? : FieldReader SituatedNode Failure α)
    (initial : α)
    (situated : SituatedNode) :
    Except Failure α := do
  let { node, surroundings } ← situated.follow
  match node with
  | .scalar _ tag written =>
      match ← ScalarValue.ofScalar tag written with
      | .null => return initial
      | _ => throw (.ofType owner node)
  | .mapping _ _ list =>
      let overlay ←
        Overlay.entries owner field? (surroundings.budget + 1) surroundings { value := initial }
          list
      overlay.result
  | .sequence .. | .alias .. => throw (.ofType owner node)

end BlockScript.Yaml
