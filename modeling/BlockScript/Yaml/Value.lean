import BlockScript.Text.Base64
import BlockScript.Yaml.Document
import BlockScript.Yaml.Failure

namespace BlockScript.Yaml

/-!
# Values of scalars

The value of a scalar follows from its text and its tag, which must fit each
other.  An alias has the value of the node that it stands for, unless that node
is being read.
-/

/-- The value of a scalar. -/
inductive ScalarValue where
  | null
  | truth (value : Bool)
  | text (text : String)
  /-- A number or a timestamp. -/
  | other
  deriving Repr, DecidableEq

namespace ScalarValue

/-- The value of a scalar whose text has a meaning. -/
def ofMeaning
    (text : String) :
    Meaning → ScalarValue
  | .null => .null
  | .truth value => .truth value
  | .integer _ => .other
  | .float => .other
  | .timestamp => .other
  | .text => .text text

/-- Whether a text with a meaning may have a tag; a whole number may be a float. -/
def isFitting
    (tag : Tag)
    (meaning : Meaning) :
    Bool :=
  meaning.tag = tag || (tag = .float && meaning = .integer true)

/-- The value of a scalar, whose text must fit its tag. -/
def ofScalar
    (tag : Tag)
    (text : String) :
    Except Failure ScalarValue :=
  match tag with
  | .null | .bool | .int | .float | .timestamp =>
      let meaning := Meaning.ofText (tag = .timestamp) text
      if isFitting tag meaning then
        .ok (ofMeaning text meaning)
      else
        .error (.refused (.wrongTag meaning.tag text tag))
  | .binary =>
      match Text.Base64.decode? text with
      | some octets => .ok (.text (Text.decode octets))
      | none => .error (.refused .invalidBinary)
  | .str | .merge | .seq | .map | .other _ => .ok (.text text)

/-- The text that a value gives, if it is not null: mostly that with which it was written. -/
def asText?
    (written : String) :
    ScalarValue → Option String
  | .null => none
  | .truth _ => some written
  | .text content => some content
  | .other => some written

/-- The truth value that a text which is not one by its tag may still stand for. -/
def wordTruth?
    (written : String) :
    Option Bool :=
  if written ∈ ["y", "Y", "yes", "Yes", "YES", "on", "On", "ON"] then
    some true
  else if written ∈ ["n", "N", "no", "No", "NO", "off", "Off", "OFF"] then
    some false
  else
    none

/-- The truth value that a value is, or stands for as a word. -/
def asTruth? : ScalarValue → Option Bool
  | .null => none
  | .truth value => some value
  | .text word => wordTruth? word
  | .other => none

end ScalarValue

/-- What nodes are read with: the nodes that have anchors, and the aliases on the way here. -/
structure Surroundings where
  anchored : List (Nat × Node) := []
  /-- The numbers of the aliases on the way. -/
  entered : List Nat := []
  /-- A number that merged mappings are not nested more deeply than. -/
  budget : Nat := 0

/-- A node with what it is read with. -/
structure SituatedNode where
  node : Node
  surroundings : Surroundings

namespace SituatedNode

/-- The root of a document. -/
def ofDocument
    (document : Document) :
    SituatedNode where
  node := document.root
  surroundings :=
    { anchored := document.anchored
      budget := document.size * document.size }

/-- The node that an alias stands for, unless it is being read; other nodes stand for themselves. -/
def follow
    (situated : SituatedNode) :
    Except Failure SituatedNode :=
  match situated.node with
  | .alias line name anchor site =>
      let { anchored, entered, budget } := situated.surroundings
      if entered.contains site then
        .error (.refused (.selfContaining name))
      else
        .ok
          { node := (anchored.lookup anchor).getD (.nothing line)
            surroundings := { anchored, entered := site :: entered, budget } }
  | .scalar .. | .sequence .. | .mapping .. => .ok situated

end SituatedNode

end BlockScript.Yaml
