import BlockScript.Yaml.Overlay

namespace BlockScript.Yaml

/-!
# The reader

The reader is the library for documents that the command is run with.
-/

/-- The library that reads documents octet by octet. -/
def reader : Library where
  Failure := Failure
  message := Failure.message
  inputMessage reason := "yaml: input error: " ++ reason
  Node := SituatedNode
  root? octets :=
    match Document.ofOctets? octets with
    | .error malformation => .error (.malformed malformation)
    | .ok document? => .ok (document?.map SituatedNode.ofDocument)
  text := SituatedNode.text
  truth := SituatedNode.truth
  record := SituatedNode.record

end BlockScript.Yaml
