import BlockScript.CommandLine.Folder
import BlockScript.CommandLine.Request
import BlockScript.Settings.Decoding
import BlockScript.Session
import BlockScript.Text.Decoding

namespace BlockScript.CommandLine

/-!
# Running commands

A command runs a script, or the lines of its input as a session with a prompt.
What it writes and its exit status are a function of its words, the files it
reads and its input.  How options and documents are read and how diagnostics are
painted is left to libraries.

A script's status tells its outcome.  In a prompt session an error only ends its
own line: the log is cleared after each line.

Loops may run a given number of rounds.  A command is given more than a machine
can run.
-/

/-- What a command leaves to libraries. -/
structure Libraries where
  /-- Read the options of a command, or say what is wrong with them. -/
  options : (arguments : List String) → Except String Options
  /-- How documents are read. -/
  documents : Yaml.Library
  /-- What is written for a text that is painted. -/
  paint : String → String

/-- What a command wrote, and its exit status. -/
structure Transcript where
  output : String := ""
  errors : String := ""
  status : UInt32 := 0
  deriving Repr, DecidableEq

namespace Status

/-- The command was not used as it should be. -/
def usage : UInt32 := 64

/-- The source has errors. -/
def source : UInt32 := 65

/-- The script cannot be read. -/
def noScript : UInt32 := 66

/-- The program failed. -/
def failure : UInt32 := 70

/-- The input cannot be read. -/
def input : UInt32 := 74

/-- The settings cannot be read. -/
def settings : UInt32 := 78

end Status

namespace Transcript

/-- The transcript of a command that ends with a message. -/
def failed
    (message : String)
    (status : UInt32) :
    Transcript where
  errors := message ++ "\n"
  status := status

end Transcript

/-- The settings in a file. -/
def settingsIn
    (documents : Yaml.Library)
    (file : String) :
    FileContent → Except String Settings
  | .unopened fault => .error (fault.message file)
  | .directory => .error (file ++ ": " ++ documents.inputMessage (directoryMessage file))
  | .octets octets =>
      match Settings.decode documents octets with
      | .ok settings => .ok settings
      | .error fault => .error (file ++ ": " ++ fault.message documents)

/-- How the diagnostics of a command are painted, if they are. -/
def painter?
    (paint : String → String)
    (settings : Settings)
    (terminal : Bool) :
    Option (String → String) :=
  if settings.color.isColored terminal then some paint else none

/-- What a unit writes to the error stream, in the order in which it is written. -/
def unitErrors
    (paint : String → String)
    (settings : Settings)
    (terminal : Bool)
    (record : UnitRecord) :
    String :=
  let written := Diagnostic.shownAll (painter? paint settings terminal)
  written record.lexicalDiagnostics ++
    (if settings.listings.tokens then record.tokenListing else "") ++
    written record.grammarDiagnostics ++
    (if settings.listings.tree then record.treeListing else "") ++
    written record.runtimeDiagnostics

/-- The unit that octets stand for. -/
def unitOf
    (octets : ByteArray) :
    List Char :=
  (Text.decode octets).toList

/-- The exit status of a script after its only unit. -/
def scriptStatus
    (log : Log) :
    UInt32 :=
  if log.hadError then
    Status.source
  else if log.hadRuntimeError then
    Status.failure
  else
    0

/-- Run a script. -/
def runScript
    (paint : String → String)
    (settings : Settings)
    (terminal : Bool)
    (rounds : Nat)
    (file : String) :
    FileContent → Transcript
  | .unopened fault => .failed (fault.message file) Status.noScript
  | .directory => .failed (directoryMessage file) Status.noScript
  | .octets octets =>
      let (record, session) := ({} : Session).run { rounds } (unitOf octets)
      { output := record.output
        errors := unitErrors paint settings terminal record
        status := scriptStatus session.log }

/-- The longest line that a prompt takes is shorter than this number of octets. -/
def lineLimit : Nat := 65536

/-- A line of input. -/
inductive InputLine where
  | octets (octets : ByteArray)
  | tooLong

namespace InputLine

/--
A line without its line feed, given last octet first.  One carriage return at
its end is dropped.
-/
def ofReversed
    (reversed : List UInt8) :
    InputLine :=
  if lineLimit ≤ reversed.length then
    .tooLong
  else
    match reversed with
    | 13 :: rest => .octets ⟨rest.reverse.toArray⟩
    | _ => .octets ⟨reversed.reverse.toArray⟩

/-- The lines of an input, behind the octets of a line that has begun, given last first. -/
def split
    (lines : List InputLine)
    (begun : List UInt8) :
    List UInt8 → List InputLine
  | [] =>
      match begun with
      | [] => lines.reverse
      | _ => (ofReversed begun :: lines).reverse
  | 10 :: rest => split (ofReversed begun :: lines) [] rest
  | octet :: rest => split lines (octet :: begun) rest

end InputLine

/-- Run one line of a prompt session and clear the log. -/
def runLine
    (paint : String → String)
    (settings : Settings)
    (terminal : Bool)
    (rounds : Nat)
    (session : Session)
    (octets : ByteArray) :
    Transcript × Session :=
  let (record, after) := session.run { echo := settings.echo, rounds } (unitOf octets)
  ({ output := record.output, errors := unitErrors paint settings terminal record }, after.reset)

/-- The message for a line that is too long. -/
def tooLongMessage : String :=
  "bufio.Scanner: token too long"

/--
Run the lines of a prompt session, each behind a prompt, and end behind one more.
A line that is too long ends the session.
-/
def runLines
    (paint : String → String)
    (settings : Settings)
    (terminal : Bool)
    (rounds : Nat)
    (session : Session)
    (written : Transcript) :
    List InputLine → Transcript × Session
  | [] => ({ written with output := written.output ++ settings.prompt }, session)
  | .tooLong :: _ =>
      ({ output := written.output ++ settings.prompt
         errors := written.errors ++ tooLongMessage ++ "\n"
         status := Status.input }, session)
  | .octets octets :: rest =>
      let (line, after) := runLine paint settings terminal rounds session octets
      runLines paint settings terminal rounds after
        { written with
          output := written.output ++ settings.prompt ++ line.output
          errors := written.errors ++ line.errors }
        rest

/-- Run an input as a prompt session; the session is given as it is at the end. -/
def runPrompt
    (paint : String → String)
    (settings : Settings)
    (terminal : Bool)
    (rounds : Nat)
    (input : ByteArray) :
    Transcript × Session :=
  runLines paint settings terminal rounds {} {} (InputLine.split [] [] input.toList)

/-- The settings that a command runs with. -/
def settingsFor
    (documents : Yaml.Library)
    (words : Words)
    (defaultFile : String)
    (files : String → FileContent) :
    Except String Settings :=
  let file := words.settingsFile defaultFile
  if file = "" then
    .ok (words.apply {})
  else
    (settingsIn documents file (files file)).map words.apply

/-- How many rounds a loop may run in a command. -/
def roundLimit : Nat :=
  ({} : Policy).rounds

/-- The transcript of a command in a working directory. -/
def Libraries.run
    (libraries : Libraries)
    (arguments : List String)
    (defaultFile : String)
    (folder : Folder)
    (input : ByteArray)
    (terminal : Bool)
    (rounds : Nat) :
    Transcript :=
  match Request.ofOptions (libraries.options arguments) with
  | .refuse message =>
      { output := usage, errors := message ++ "\n", status := Status.usage }
  | .help => { output := usage }
  | .misuse => { output := usage, status := Status.usage }
  | .prompt words =>
      match settingsFor libraries.documents words defaultFile (folder.content input) with
      | .error message => .failed message Status.settings
      | .ok settings =>
          (runPrompt libraries.paint settings terminal rounds
            (folder.inputLeft input (words.settingsFile defaultFile))).1
  | .script words file =>
      match settingsFor libraries.documents words defaultFile (folder.content input) with
      | .error message => .failed message Status.settings
      | .ok settings =>
          let left := folder.inputLeft input (words.settingsFile defaultFile)
          runScript libraries.paint settings terminal rounds file (folder.content left file)

end BlockScript.CommandLine
