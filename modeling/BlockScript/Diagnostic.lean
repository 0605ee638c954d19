import BlockScript.Source.Lexing
import BlockScript.Reading.Fault

namespace BlockScript

/-!
# Diagnostics

A diagnostic is an error as it is shown to the user.  Errors of the source name
their line first; a runtime error names it on a line of its own.  A diagnostic
may stand inside a wider one, and counts as a runtime error when one is anywhere
inside it.
-/

/-- An error as it is shown. -/
inductive Diagnostic where
  | lexical (line : Int) (message : String)
  | grammar (token : Token) (message : String)
  | runtime (token : Token) (message : String)
  | plain (message : String)
  | wrapped (message : String) (inner : Diagnostic)
  deriving Repr, DecidableEq

namespace Diagnostic

/-- A line number as it is shown. -/
def lineMark
    (line : Int) :
    String :=
  "[line " ++ Int.repr line ++ "]"

/-- The text of a diagnostic. -/
def text : Diagnostic → String
  | .lexical line message => lineMark line ++ " Error: " ++ message
  | .grammar token message =>
      if token.kind = .endOfInput then
        lineMark token.line ++ " Error at end: " ++ message
      else
        lineMark token.line ++ " Error at '" ++ token.lexeme ++ "': " ++ message
  | .runtime token message => message ++ "\n" ++ lineMark token.line
  | .plain message => message
  | .wrapped message inner => message ++ ": " ++ inner.text

/-- Whether a diagnostic is a runtime error or holds one. -/
def isRuntime : Diagnostic → Bool
  | .lexical .. => false
  | .grammar .. => false
  | .runtime .. => true
  | .plain _ => false
  | .wrapped _ inner => inner.isRuntime

end Diagnostic

/-- A lexical error as it is shown. -/
def LexicalError.diagnostic
    (error : LexicalError) :
    Diagnostic :=
  .lexical error.line error.fault.message

/-- A grammar error as it is shown. -/
def GrammarError.diagnostic
    (error : GrammarError) :
    Diagnostic :=
  .grammar error.token error.fault.message

end BlockScript
