namespace BlockScript.Yaml

/-!
# Tokens

A document is first cut into tokens.  Some of them stand for characters of the
document, others for the beginning and end of collections that only their
indentation shows.
-/

/-- Whether a scalar was written without quotes. -/
inductive Style where
  | plain
  | quoted
  deriving Repr, DecidableEq

/-- What a token is. -/
inductive TokenKind where
  | textStart
  | textEnd
  | version (major minor : Nat)
  | tagHandle (handle meaning : String)
  | documentStart
  | documentEnd
  | blockSequenceStart
  | blockMappingStart
  | blockEnd
  | flowSequenceStart
  | flowSequenceEnd
  | flowMappingStart
  | flowMappingEnd
  | blockEntry
  | flowEntry
  | key
  | value
  | alias (name : String)
  | anchor (name : String)
  | tag (handle suffix : String)
  | scalar (style : Style) (text : String)
  deriving Repr, DecidableEq

/-- A position in a document; lines count from one, columns and characters from zero. -/
structure Position where
  index : Nat
  line : Nat
  column : Nat
  deriving Repr, DecidableEq

/-- A token and the position at which it begins. -/
structure Token where
  kind : TokenKind
  position : Position
  deriving Repr, DecidableEq

namespace Token

/-- The line on which a token begins. -/
def line
    (token : Token) :
    Nat :=
  token.position.line

end Token

end BlockScript.Yaml
