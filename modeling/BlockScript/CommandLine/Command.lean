import BlockScript.CommandLine.Options
import BlockScript.CommandLine.Painting
import BlockScript.CommandLine.Running
import BlockScript.Settings.Reading

namespace BlockScript.CommandLine

/-!
# The command

The command is run with the option reader, the document reader and the red paint of
this library.
-/

/-- The libraries that the command is run with. -/
def Libraries.standard : Libraries where
  options arguments :=
    match Options.read arguments with
    | .ok options => .ok options
    | .error fault => .error fault.message
  documents := Yaml.reader
  paint := Diagnostic.inRed

/-- The transcript of the command in a working directory. -/
def run
    (arguments : List String)
    (defaultFile : String)
    (folder : Folder)
    (input : ByteArray)
    (terminal : Bool)
    (rounds : Nat := roundLimit) :
    Transcript :=
  Libraries.standard.run arguments defaultFile folder input terminal rounds

end BlockScript.CommandLine
