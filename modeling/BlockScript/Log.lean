import BlockScript.Diagnostic

namespace BlockScript

/-!
# The log of a session

The log remembers whether an error of the source and whether a runtime error has
been reported since it was last cleared.
-/

/-- Which errors have been reported. -/
structure Log where
  hadError : Bool := false
  hadRuntimeError : Bool := false
  deriving Repr, DecidableEq

namespace Log

/-- Nothing has been reported. -/
def clear : Log where

/-- Report one diagnostic. -/
def report
    (log : Log)
    (diagnostic : Diagnostic) :
    Log :=
  if diagnostic.isRuntime then
    { log with hadRuntimeError := true }
  else
    { log with hadError := true }

/-- Report diagnostics in order. -/
def reportAll
    (log : Log)
    (diagnostics : List Diagnostic) :
    Log :=
  diagnostics.foldl report log

end Log

namespace Diagnostic

/-- What reporting a diagnostic writes: its text, painted if there is a way to paint it. -/
def shown
    (paint? : Option (String → String))
    (diagnostic : Diagnostic) :
    String :=
  match paint? with
  | some paint => paint diagnostic.text
  | none => diagnostic.text ++ "\n"

/-- What reporting diagnostics in order writes. -/
def shownAll
    (paint? : Option (String → String))
    (diagnostics : List Diagnostic) :
    String :=
  String.join (diagnostics.map (shown paint?))

end Diagnostic

end BlockScript
