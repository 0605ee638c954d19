import BlockScript.Settings.Basic
import BlockScript.Yaml.Library

namespace BlockScript

/-!
# Reading settings from a document

A library lays a document over the defaults, field by field.  The draft that results
is checked if the library has found no fault with the document.
-/

/-- The fields of the listings. -/
def Listings.field?
    (library : Yaml.Library) :
    Yaml.FieldReader library.Node library.Failure Listings
  | "tokens" => some fun listings node => do
      return { listings with tokens := ← library.truth listings.tokens node }
  | "ast" => some fun listings node => do
      return { listings with tree := ← library.truth listings.tree node }
  | _ => none

/-- The fields of a draft. -/
def Draft.field?
    (library : Yaml.Library) :
    Yaml.FieldReader library.Node library.Failure Draft
  | "prompt" => some fun draft node => do
      return { draft with prompt := ← library.text "string" draft.prompt node }
  | "color" => some fun draft node => do
      return { draft with color := ← library.text "config.ColorMode" draft.color node }
  | "echo" => some fun draft node => do
      return { draft with echo := ← library.truth draft.echo node }
  | "dump" => some fun draft node => do
      return { draft with
        listings :=
          ← library.record "config.Dump" (Listings.field? library) draft.listings node }
  | _ => none

/-- Why a text gives no settings. -/
inductive SettingsFault (Failure : Type) where
  | unread (failure : Failure)
  | unusable (fault : DraftFault)

/-- The message for a text that gives no settings. -/
def SettingsFault.message
    (library : Yaml.Library) :
    SettingsFault library.Failure → String
  | .unread failure => library.message failure
  | .unusable fault => fault.message

namespace Settings

/-- Settings from a draft, unless it cannot be used. -/
def ofDraft
    {Failure : Type}
    (draft : Draft) :
    Except (SettingsFault Failure) Settings :=
  match draft.check with
  | .ok settings => .ok settings
  | .error fault => .error (.unusable fault)

/-- Settings from a text, as a library reads it; without a document in it, the defaults. -/
def decode
    (library : Yaml.Library)
    (octets : ByteArray) :
    Except (SettingsFault library.Failure) Settings :=
  match library.root? octets with
  | .error failure => .error (.unread failure)
  | .ok none => ofDraft {}
  | .ok (some root) =>
      match library.record "config.Config" (Draft.field? library) {} root with
      | .error failure => .error (.unread failure)
      | .ok draft => ofDraft draft

end Settings

end BlockScript
