import BlockScript.Text.Decoding
import BlockScript.Text.Quoted
import BlockScript.Yaml.Fault
import BlockScript.Yaml.Tag

namespace BlockScript.Yaml

/-!
# Why a document is not read

A fault concerns one node: it has the wrong type, or it is a key that is unknown
or repeated.  A document may have many faults.  A refusal concerns the document
as a whole, and there is only one.
-/

/-- What is wrong with one node of a document, with the names of the types that were expected. -/
inductive DocumentFault where
  | wrongType (line : Nat) (tag : Tag) (text : String) (expected : String)
  | unknownField (line : Nat) (name : String) (owner : String)
  | repeatedField (line : Nat) (name : String) (owner : String)
  | repeatedKey (line : Nat) (name : String) (firstLine : Nat)
  deriving Repr, DecidableEq

namespace DocumentFault

/-- A scalar as it is shown: at most ten octets, or seven and an ellipsis. -/
def excerpt
    (text : String) :
    String :=
  let octets := text.toUTF8
  if octets.size ≤ 10 then
    text
  else
    Text.decode (octets.extract 0 7) ++ "..."

/-- The text of a node as it is shown behind its tag. -/
def shown
    (tag : Tag)
    (text : String) :
    String :=
  if tag = .seq || tag = .map then text else " \x60" ++ excerpt text ++ "\x60"

/-- The line of a node as it is shown. -/
def place
    (line : Nat) :
    String :=
  "line " ++ Nat.repr line ++ ": "

/-- The message for one node. -/
def message : DocumentFault → String
  | .wrongType line tag text expected =>
      place line ++ "cannot unmarshal " ++ tag.name ++ shown tag text ++ " into " ++ expected
  | .unknownField line name owner =>
      place line ++ "field " ++ name ++ " not found in type " ++ owner
  | .repeatedField line name owner =>
      place line ++ "field " ++ name ++ " already set in type " ++ owner
  | .repeatedKey line name firstLine =>
      place line ++ "mapping key " ++ Text.quote name ++ " already defined at line " ++
        Nat.repr firstLine

/-- The message for a document with faults. -/
def messageOfAll
    (faults : List DocumentFault) :
    String :=
  "yaml: unmarshal errors:" ++ String.join (faults.map fun fault => "\n  " ++ fault.message)

end DocumentFault

/-- Why a document cannot be read at all, although it is well-formed. -/
inductive Refusal where
  | wrongTag (actual : Tag) (text : String) (expected : Tag)
  | invalidBinary
  | mergedNoMapping
  | selfContaining (anchor : String)
  deriving Repr, DecidableEq

namespace Refusal

/-- The message for a document that cannot be read. -/
def message : Refusal → String
  | .wrongTag actual text expected =>
      "cannot decode " ++ actual.name ++ " \x60" ++ text ++ "\x60 as a " ++ expected.name
  | .invalidBinary => "!!binary value contains invalid base64 data"
  | .mergedNoMapping => "map merge requires map or sequence of maps as the value"
  | .selfContaining anchor => "anchor '" ++ anchor ++ "' value contains itself"

end Refusal

/-- Why a document is not read. -/
inductive Failure where
  | malformed (malformation : Malformation)
  | refused (refusal : Refusal)
  | mistyped (first : DocumentFault) (others : List DocumentFault)
  deriving Repr, DecidableEq

namespace Failure

/-- The message for a document that is not read. -/
def message : Failure → String
  | .malformed malformation => "yaml: " ++ malformation.message
  | .refused refusal => "yaml: " ++ refusal.message
  | .mistyped first others => DocumentFault.messageOfAll (first :: others)

end Failure

end BlockScript.Yaml
