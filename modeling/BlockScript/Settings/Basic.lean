import BlockScript.Text.Quoted

namespace BlockScript

/-!
# Settings

Settings say how a session talks to its user.  A draft holds them as they were
written; `Draft.check` accepts a draft whose colour mode exists and whose prompt
is not empty.
-/

/-- When diagnostics are painted. -/
inductive ColorMode where
  | auto
  | always
  | never
  deriving Repr, DecidableEq

namespace ColorMode

/-- The name of a colour mode. -/
def name : ColorMode → String
  | .auto => "auto"
  | .always => "always"
  | .never => "never"

/-- The colour mode with the given name. -/
def ofName? : String → Option ColorMode
  | "auto" => some .auto
  | "always" => some .always
  | "never" => some .never
  | _ => none

/-- Whether diagnostics are painted, given whether they go to a terminal. -/
def isColored
    (terminal : Bool) :
    ColorMode → Bool
  | .auto => terminal
  | .always => true
  | .never => false

end ColorMode

/-- Which listings are written before a unit is executed. -/
structure Listings where
  tokens : Bool := false
  tree : Bool := false
  deriving Repr, DecidableEq

/-- Settings as they were written. -/
structure Draft where
  prompt : String := "> "
  color : String := "auto"
  echo : Bool := false
  listings : Listings := {}
  deriving Repr, DecidableEq

/-- Settings that can be used. -/
structure Settings where
  prompt : String := "> "
  color : ColorMode := .auto
  echo : Bool := false
  listings : Listings := {}
  deriving Repr, DecidableEq

/-- Why a draft cannot be used. -/
inductive DraftFault where
  | unknownColorMode (name : String)
  | emptyPrompt
  deriving Repr, DecidableEq

namespace DraftFault

/-- The message for a draft that cannot be used. -/
def message : DraftFault → String
  | .unknownColorMode name =>
      "invalid color mode " ++ Text.quote name ++ ", want one of auto, always, never"
  | .emptyPrompt => "prompt must not be empty"

end DraftFault

namespace Draft

/-- Accept a draft whose colour mode exists and whose prompt is not empty. -/
def check
    (draft : Draft) :
    Except DraftFault Settings :=
  match ColorMode.ofName? draft.color with
  | none => .error (.unknownColorMode draft.color)
  | some color =>
      if draft.prompt = "" then
        .error .emptyPrompt
      else
        .ok
          { prompt := draft.prompt
            color
            echo := draft.echo
            listings := draft.listings }

end Draft

end BlockScript
