import BlockScript.CommandLine.Command

namespace BlockScript.CommandLine

/-!
# The program

The outer layer of the command: it reads files and lines, and writes what the
library gives it.  Nothing is decided here.
-/

/-- Read what stands under a file name. -/
def readContent
    (file : String) :
    IO FileContent := do
  try
    return .octets (← IO.FS.readBinFile file)
  catch error =>
    match error with
    | .noFileOrDirectory .. => return .unopened .missing
    | .inappropriateType (some _) .. => return .unopened .notDirectory
    | .invalidArgument .. => return .unopened .nameTooLong
    | _ => return .directory

/-- Write a transcript to the streams. -/
def writeTranscript
    (transcript : Transcript) :
    IO Unit := do
  let output ← IO.getStdout
  let errors ← IO.getStderr
  output.putStr transcript.output
  output.flush
  errors.putStr transcript.errors
  errors.flush

/-- Read one line of input, given last octet first, and whether a line feed ended it. -/
partial def readLine
    (input : IO.FS.Stream)
    (begun : List UInt8) :
    IO (List UInt8 × Bool) := do
  let octets ← input.read 1
  match octets.toList with
  | [] => return (begun, false)
  | 10 :: _ => return (begun, true)
  | octet :: _ => readLine input (octet :: begun)

/-- Run a prompt session line by line as the input comes in. -/
partial def prompt
    (settings : Settings)
    (terminal : Bool)
    (session : Session) :
    IO UInt32 := do
  let output ← IO.getStdout
  output.putStr settings.prompt
  output.flush
  let (reversed, ended) ← readLine (← IO.getStdin) []
  if reversed.isEmpty && !ended then
    return 0
  match InputLine.ofReversed reversed with
  | .tooLong =>
      writeTranscript (.failed tooLongMessage Status.input)
      return Status.input
  | .octets octets =>
      let paint := Libraries.standard.paint
      let (line, after) := runLine paint settings terminal roundLimit session octets
      writeTranscript line
      prompt settings terminal after

/-- The settings for a command, or the transcript of its failure. -/
def readSettings
    (words : Words) :
    IO (Except Transcript Settings) := do
  let default := (← IO.getEnv "BAGEL_CONFIG").getD ""
  let file := words.settingsFile default
  let content ← if file = "" then pure (.unopened .missing) else readContent file
  match settingsFor Libraries.standard.documents words default fun _ => content with
  | .ok settings => return .ok settings
  | .error message => return .error (.failed message Status.settings)

/-- Write a transcript and end with its status. -/
def finish
    (transcript : Transcript) :
    IO UInt32 := do
  writeTranscript transcript
  return transcript.status

/-- Run the command. -/
def start
    (arguments : List String) :
    IO UInt32 := do
  let terminal ← (← IO.getStderr).isTty
  match Request.ofOptions (Libraries.standard.options arguments) with
  | .prompt words =>
      match ← readSettings words with
      | .error transcript => finish transcript
      | .ok settings => prompt settings terminal {}
  | .script words file =>
      match ← readSettings words with
      | .error transcript => finish transcript
      | .ok settings =>
          let content ← readContent file
          finish (runScript Libraries.standard.paint settings terminal roundLimit file content)
  | .refuse _ | .help | .misuse =>
      finish (run arguments "" { entries := [] } ByteArray.empty terminal)

end BlockScript.CommandLine

/-- The program. -/
def main
    (arguments : List String) :
    IO UInt32 :=
  BlockScript.CommandLine.start arguments
