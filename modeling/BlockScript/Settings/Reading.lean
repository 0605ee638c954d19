import BlockScript.Settings.Decoding
import BlockScript.Yaml.Reader

namespace BlockScript

/-!
# Settings as the reader gives them

The settings that a text gives when documents are read with `Yaml.reader`.
-/

/-- Why the reader gives no settings. -/
inductive SettingsError where
  | malformed (malformation : Yaml.Malformation)
  | refused (refusal : Yaml.Refusal)
  | mistyped (faults : List Yaml.DocumentFault)
  | unusable (fault : DraftFault)
  deriving Repr, DecidableEq

namespace SettingsError

/-- Why the reader gives no settings, from what is wrong with them. -/
def ofFault : SettingsFault Yaml.Failure → SettingsError
  | .unread (.malformed malformation) => .malformed malformation
  | .unread (.refused refusal) => .refused refusal
  | .unread (.mistyped first others) => .mistyped (first :: others)
  | .unusable fault => .unusable fault

/-- The message for a text that gives no settings. -/
def message : SettingsError → String
  | .malformed malformation => (Yaml.Failure.malformed malformation).message
  | .refused refusal => (Yaml.Failure.refused refusal).message
  | .mistyped faults => Yaml.DocumentFault.messageOfAll faults
  | .unusable fault => fault.message

end SettingsError

/-- Settings from a text; without a document in it, the defaults. -/
def Settings.ofOctets
    (octets : ByteArray) :
    Except SettingsError Settings :=
  match decode Yaml.reader octets with
  | .ok settings => .ok settings
  | .error fault => .error (.ofFault fault)

end BlockScript
