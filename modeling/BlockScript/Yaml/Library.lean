namespace BlockScript.Yaml

/-!
# Libraries for documents

Documents are read by a library, which lays the nodes of a document over values:
over texts, truth values and records.  What a node is and what it gives is for the
library to say.  A record says which fields it has and where their values belong.
-/

/-- How a node is laid over the field of a record with the given name, if there is one. -/
abbrev FieldReader (Node Failure α : Type) :=
  String → Option (α → Node → Except Failure α)

/-- A library that reads documents and lays them over values. -/
structure Library where
  /-- Why a document cannot be read, or cannot be laid over a value. -/
  Failure : Type
  /-- The message for a failure. -/
  message : Failure → String
  /-- The message for an input that cannot be read, for the given reason. -/
  inputMessage : (reason : String) → String
  /-- A node of a document. -/
  Node : Type
  /-- The root of the first document of a text, if there is one. -/
  root? : (octets : ByteArray) → Except Failure (Option Node)
  /-- Lay a node over a text, whose type is named in messages. -/
  text : (typeName : String) → (initial : String) → Node → Except Failure String
  /-- Lay a node over a truth value. -/
  truth : (initial : Bool) → Node → Except Failure Bool
  /-- Lay a node over a record, whose type is named in messages; all keys must be fields of it. -/
  record :
    {α : Type} →
      (typeName : String) →
        (field? : FieldReader Node Failure α) → (initial : α) → Node → Except Failure α

end BlockScript.Yaml
