import BlockScript.Settings.Decoding

namespace BlockScript

/-!
# What a library promises

The contents of the nodes of a library are what they give to a field: nothing if they
are null, a text, a truth value, or the entries of a mapping whose keys are scalars.
A library promises how it lays nodes with these contents.  Where a mapping stands and
how it is written is not said here at all.
-/

namespace Yaml

/-- What the nodes of a library give to fields. -/
structure Contents (library : Library) where
  /-- Whether a node is null. -/
  isNull : library.Node → Bool
  /-- The text that a scalar is in a field of texts. -/
  text? : library.Node → Option String
  /-- The truth value that a scalar is in a field of truth values. -/
  truth? : library.Node → Option Bool
  /-- The entries of a mapping whose keys are scalars, each with the name that its key is. -/
  entries? : library.Node → Option (List (String × library.Node))

/-- Null leaves a value, a scalar of its type replaces it, and no other node can be laid over it. -/
structure LaysScalars
    {Node Failure β : Type}
    (isNull : Node → Bool)
    (read? : Node → Option β)
    (lay : β → Node → Except Failure β) :
    Prop where
  null :
    ∀ {initial : β} {node : Node}, isNull node = true → lay initial node = .ok initial
  stored :
    ∀ {initial value : β} {node : Node},
      isNull node = false → read? node = some value → lay initial node = .ok value
  mistyped :
    ∀ {initial : β} {node : Node},
      isNull node = false → read? node = none → ∃ failure, lay initial node = .error failure

/-- Entries are laid one after another, each over the field that its key names. -/
inductive Laid
    {Node Failure α : Type}
    (field? : FieldReader Node Failure α) :
    α → List (String × Node) → α → Prop where
  | nil {value : α} : Laid field? value [] value
  | cons
      {before between after : α}
      {name : String}
      {node : Node}
      {rest : List (String × Node)}
      {lay : α → Node → Except Failure α}
      (known : field? name = some lay)
      (first : lay before node = .ok between)
      (others : Laid field? between rest after) :
      Laid field? before ((name, node) :: rest) after

/-- What a library that knows the contents of its nodes promises about laying them. -/
structure Promises
    {library : Library}
    (contents : Contents library) :
    Prop where
  /-- Scalars are laid over texts. -/
  text :
    ∀ typeName, LaysScalars contents.isNull contents.text? (library.text typeName)
  /-- Scalars are laid over truth values. -/
  truth :
    LaysScalars contents.isNull contents.truth? library.truth
  /-- Null leaves a record. -/
  null :
    ∀ {α : Type} {typeName : String} {field? : FieldReader library.Node library.Failure α}
        {initial : α} {node : library.Node},
      contents.isNull node = true →
        library.record typeName field? initial node = .ok initial
  /-- If all keys are known and none is repeated, the entries are laid over their fields. -/
  stored :
    ∀ {α : Type} {typeName : String} {field? : FieldReader library.Node library.Failure α}
        {initial after : α} {node : library.Node} {entries : List (String × library.Node)},
      contents.entries? node = some entries →
        (∀ entry ∈ entries, (field? entry.1).isSome) →
          (entries.map Prod.fst).Nodup →
            (library.record typeName field? initial node = .ok after ↔
              Laid field? initial entries after)
  /-- A mapping with an unknown key cannot be laid over a record. -/
  unknown :
    ∀ {α : Type} {typeName : String} {field? : FieldReader library.Node library.Failure α}
        {initial : α} {node : library.Node} {entries : List (String × library.Node)},
      contents.entries? node = some entries →
        (∃ entry ∈ entries, field? entry.1 = none) →
          ∃ failure, library.record typeName field? initial node = .error failure
  /-- Nor can a mapping that repeats a key. -/
  repeated :
    ∀ {α : Type} {typeName : String} {field? : FieldReader library.Node library.Failure α}
        {initial : α} {node : library.Node} {entries : List (String × library.Node)},
      contents.entries? node = some entries →
        ¬(entries.map Prod.fst).Nodup →
          ∃ failure, library.record typeName field? initial node = .error failure

namespace Contents

variable {library : Library} (contents : Contents library)

/-- What a node is read as, unless it is null. -/
def unlessNull
    {β : Type}
    (read? : library.Node → Option β)
    (node : library.Node) :
    Option β :=
  if contents.isNull node then none else read? node

/-- What entries give to the field with a name. -/
def given?
    {β : Type}
    (read? : library.Node → Option β)
    (name : String)
    (entries : List (String × library.Node)) :
    Option β :=
  (entries.lookup name).bind (contents.unlessNull read?)

/-- What a mapping gives to the field with a name. -/
def givenIn?
    {β : Type}
    (read? : library.Node → Option β)
    (name : String)
    (node : library.Node) :
    Option β :=
  contents.given? read? name ((contents.entries? node).getD [])

/--
Entries suit a record with the given fields: every key is the name of a field and none
is repeated, and every value is null or of the type of its field.
-/
structure Suits
    (fields : List (String × (library.Node → Prop)))
    (entries : List (String × library.Node)) :
    Prop where
  known : ∀ entry ∈ entries, entry.1 ∈ fields.map Prod.fst
  once : (entries.map Prod.fst).Nodup
  typed :
    ∀ entry ∈ entries, ∀ isTyped,
      (entry.1, isTyped) ∈ fields → contents.isNull entry.2 = true ∨ isTyped entry.2

/-- A node is a text. -/
def IsText (node : library.Node) : Prop :=
  (contents.text? node).isSome

/-- A node is a truth value. -/
def IsTruth (node : library.Node) : Prop :=
  (contents.truth? node).isSome

/-- The fields of the listings and the types of their values. -/
def listingsFields : List (String × (library.Node → Prop)) :=
  [("tokens", contents.IsTruth), ("ast", contents.IsTruth)]

/-- A node is a mapping whose entries suit the listings. -/
def IsListings (node : library.Node) : Prop :=
  ∃ entries, contents.entries? node = some entries ∧ contents.Suits contents.listingsFields entries

/-- The fields of the settings and the types of their values. -/
def settingsFields : List (String × (library.Node → Prop)) :=
  [("prompt", contents.IsText), ("color", contents.IsText), ("echo", contents.IsTruth),
    ("dump", contents.IsListings)]

end Contents

end Yaml

namespace Draft

/-- The defaults, field by field under what entries give. -/
def overlaid
    {library : Yaml.Library}
    (contents : Yaml.Contents library)
    (entries : List (String × library.Node)) :
    Draft :=
  let default : Draft := {}
  { prompt := (contents.given? contents.text? "prompt" entries).getD default.prompt
    color := (contents.given? contents.text? "color" entries).getD default.color
    echo := (contents.given? contents.truth? "echo" entries).getD default.echo
    listings :=
      { tokens :=
          (contents.given? (contents.givenIn? contents.truth? "tokens") "dump" entries).getD
            default.listings.tokens
        tree :=
          (contents.given? (contents.givenIn? contents.truth? "ast") "dump" entries).getD
            default.listings.tree } }

end Draft

end BlockScript
