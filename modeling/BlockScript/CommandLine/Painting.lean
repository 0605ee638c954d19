import BlockScript.Log

namespace BlockScript.Diagnostic

/-!
# Painting

Diagnostics are painted red, with the escapes of a terminal.
-/

/-- A text in red and a line feed. -/
def inRed
    (text : String) :
    String :=
  "\x1b[31m" ++ text ++ "\x1b[0m\n"

/-- What reporting a diagnostic writes, in red if asked. -/
def written
    (colored : Bool) :
    Diagnostic → String :=
  shown (if colored then some inRed else none)

/-- What reporting diagnostics in order writes, in red if asked. -/
def writtenAll
    (colored : Bool) :
    List Diagnostic → String :=
  shownAll (if colored then some inRed else none)

end BlockScript.Diagnostic
