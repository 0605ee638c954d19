import BlockScript.Yaml.Lookahead
import BlockScript.Yaml.Node

namespace BlockScript.Yaml

/-!
# Composing nodes

Nodes are composed from tokens as these are found, so that a fault of the
arrangement is noticed before a fault of the characters further on.  A node may
have an anchor and a tag before it.

A comment before the dash of an item may belong to a collection that begins behind
the dash.  Whether one does is found out before the item is composed, and a fault
met on that occasion is put off: the tokens behind it are looked at first.
-/

/-- What is known of the nodes composed so far. -/
structure Composition where
  /-- The handles of tags and what they stand for. -/
  handles : List (String × String) := []
  /-- The anchors and their numbers, the latest first. -/
  anchors : List (String × Nat) := []
  /-- The nodes that have anchors, by the numbers of the anchors. -/
  anchored : List (Nat × Node) := []
  /-- The number of nodes. -/
  size : Nat := 0
  /-- The comments that belong to the next node. -/
  remark : List Char := []

/-- An action that composes nodes from the tokens of a document. -/
abbrev Composing (α : Type) :=
  StateT Composition (ExceptT Malformation (StateM Tokenizer)) α

/-- The properties of a node, and the line on which they or the node begin. -/
structure Properties where
  anchor? : Option String := none
  tag? : Option String := none
  line : Nat

namespace Properties

/-- Whether a node has no properties. -/
def isEmpty
    (properties : Properties) :
    Bool :=
  properties.anchor?.isNone && properties.tag?.isNone

/-- The tag of a node with the given tag of its own; a lone exclamation mark is no tag. -/
def tag
    (own : Tag)
    (properties : Properties) :
    Tag :=
  match properties.tag? with
  | none => own
  | some name => if name = "!" then own else .ofName name

end Properties

namespace Composing

open Tokenizing (take settle)

/-- The comments of a node with one more comment. -/
def addRemark
    (text remark : List Char) :
    List Char :=
  if remark.isEmpty then text else remark ++ '\n' :: text

/-- Give the comments before a position to the next node. -/
def collectRemarks
    (index : Nat) :
    Composing Unit := do
  let tokenizer ← getThe Tokenizer
  let passed := tokenizer.remarks.takeWhile (·.index ≤ index)
  set { tokenizer with remarks := tokenizer.remarks.drop passed.length }
  modify fun composition =>
    { composition with
      remark := passed.foldl (fun found remark => addRemark remark.text found) composition.remark }

/-- The next token, whose comments belong to the next node unless it ends a collection. -/
def peek : Composing Token := do
  let token ← Tokenizing.peek
  if token.kind ≠ .blockEnd then
    collectRemarks token.position.index
  return token

/-- Leave the comments to the node at hand. -/
def finishNode : Composing Unit := do
  modify fun composition => { composition with remark := [] }
  settle

/--
Behind the dash of an item that comments of the given length belong to, give them
to the collection that begins there, if there is one.
-/
def passDash
    (length : Nat) :
    Composing Unit := do
  if 0 < length then
    try
      let token ← peek
      if token.kind = .blockSequenceStart || token.kind = .blockMappingStart then
        modify fun composition =>
          { composition with remark := composition.remark.drop (length + 1) }
    catch malformation =>
      Tokenizing.defer malformation

/-- The length of the comments that belong to the next node. -/
def remarkLength : Composing Nat := do
  return (← get).remark.length

/-- A number for a node. -/
def number : Composing Nat := do
  let composition ← get
  set { composition with size := composition.size + 1 }
  return composition.size

/-- Read an anchor, if the token is one. -/
def readAnchor
    (token : Token) :
    Composing (Option String) := do
  match token.kind with
  | .anchor name =>
      take
      return some name
  | _ => return none

/-- A tag as it was written, with its line. -/
structure WrittenTag where
  handle : String
  suffix : String
  line : Nat

/-- Read a tag, if the token is one. -/
def readTag
    (token : Token) :
    Composing (Option WrittenTag) := do
  match token.kind with
  | .tag handle suffix =>
      take
      return some { handle, suffix, line := token.line }
  | _ => return none

/-- The name of a tag, whose handle must be known. -/
def resolveTag
    (start : Nat)
    (tag : WrittenTag) :
    Composing String := do
  if tag.handle = "" then
    return tag.suffix
  else
    match (← get).handles.lookup tag.handle with
    | some meaning => return meaning ++ tag.suffix
    | none => throw { fault := .unknownHandle, begun := start, stuck := tag.line }

/-- Read the properties of a node, which come in any order. -/
def readProperties : Composing Properties := do
  let first ← peek
  let anchor? ← readAnchor first
  let tag? ← readTag (← peek)
  let anchor? ← if anchor?.isSome then pure anchor? else readAnchor (← peek)
  let _ ← peek
  let name? ← tag?.mapM (resolveTag first.line)
  return { anchor?, tag? := name?, line := first.line }

/-- Give a number to the anchor of a node, so that aliases inside the node may refer to it. -/
def declare
    (properties : Properties) :
    Composing (Option Nat) := do
  match properties.anchor? with
  | none => return none
  | some name =>
      let anchor ← number
      modify fun composition =>
        { composition with anchors := (name, anchor) :: composition.anchors }
      return some anchor

/-- Keep a node under the number of its anchor. -/
def keep
    (anchor? : Option Nat)
    (node : Node) :
    Composing Node := do
  let _ ← number
  match anchor? with
  | none => return node
  | some anchor =>
      modify fun composition =>
        { composition with anchored := (anchor, node) :: composition.anchored }
      return node

/-- The node for an alias, whose anchor must be known. -/
def aliasNode
    (line : Nat)
    (name : String) :
    Composing Node := do
  match (← get).anchors.lookup name with
  | some anchor => return .alias line name anchor (← number)
  | none => throw (.anywhere (.unknownAnchor name))

/-- The node for a value that is missing. -/
def missing
    (line : Nat) :
    Composing Node := do
  settle
  keep none (.nothing line)

/-- Take the token at which a block sequence ends. -/
def closeSequence : Composing Unit := do
  take
  settle

/-- Take the token at which another collection ends. -/
def close : Composing Unit := do
  take
  finishNode

end Composing

end BlockScript.Yaml
