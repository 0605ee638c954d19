import BlockScript.Yaml.Tag

namespace BlockScript.Yaml

/-!
# Nodes

A document is a tree of scalars, sequences and mappings, each with its tag and
the line on which it begins.  An alias stands for the node that has its anchor,
which may be a node around the alias itself.
-/

/-- A node with the line on which it begins, counted from one. -/
inductive Node where
  | scalar (line : Nat) (tag : Tag) (text : String)
  | sequence (line : Nat) (tag : Tag) (items : List Node)
  | mapping (line : Nat) (tag : Tag) (entries : List (Node × Node))
  /-- An alias with the name and the number of its anchor, and a number of its own. -/
  | alias (line : Nat) (name : String) (anchor site : Nat)
  deriving Repr

/-- A document. -/
structure Document where
  root : Node
  /-- The nodes that have anchors, by the numbers of the anchors. -/
  anchored : List (Nat × Node) := []
  /-- The number of nodes. -/
  size : Nat := 1
  deriving Repr

namespace Node

/-- A missing scalar. -/
def nothing
    (line : Nat) :
    Node :=
  .scalar line .null ""

end Node

end BlockScript.Yaml
