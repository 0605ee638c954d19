namespace BlockScript.CommandLine

/-!
# Files

A command names the files it reads by paths from its working directory or from
the root.  A path is followed part by part: every part but the last must lead to
a directory, and a part may not be longer than a file system allows.  A slash
behind the last part asks for a directory too.
-/

/-- Why a file cannot be opened. -/
inductive OpenFault where
  | missing
  | notDirectory
  | nameTooLong
  deriving Repr, DecidableEq

namespace OpenFault

/-- The reason in messages. -/
def reason : OpenFault → String
  | .missing => "no such file or directory"
  | .notDirectory => "not a directory"
  | .nameTooLong => "file name too long"

/-- The message for a file that cannot be opened. -/
def message
    (file : String)
    (fault : OpenFault) :
    String :=
  "open " ++ file ++ ": " ++ fault.reason

end OpenFault

/-- What is read from a path. -/
inductive FileContent where
  | unopened (fault : OpenFault)
  | directory
  | octets (octets : ByteArray)

/-- The message for a directory that is read as a file. -/
def directoryMessage
    (file : String) :
    String :=
  "read " ++ file ++ ": is a directory"

/-- An entry of a directory. -/
inductive Entry where
  | directory
  | file (octets : ByteArray)
  /-- The input of the command itself. -/
  | input

namespace Entry

/-- What a command with the given input reads from an entry. -/
def content
    (input : ByteArray) :
    Entry → FileContent
  | .directory => .directory
  | .file octets => .octets octets
  | .input => .octets input

end Entry

/-- A directory that a path has led to; the parts behind its beginning are held last first. -/
inductive Place where
  /-- In the working directory or below it. -/
  | below (parts : List String)
  /-- Above the working directory, where nothing but further directories is known. -/
  | above
  /-- At the root or below it. -/
  | rooted (parts : List String)
  deriving Repr, DecidableEq

namespace Place

/-- The directory that holds this one; the root holds itself. -/
def parent : Place → Place
  | .below [] => .above
  | .below (_ :: parts) => .below parts
  | .above => .above
  | .rooted parts => .rooted parts.tail

/-- The place that one more part leads to. -/
def child?
    (part : String) :
    Place → Option Place
  | .below parts => some (.below (part :: parts))
  | .above => none
  | .rooted parts => some (.rooted (part :: parts))

end Place

/-- What stands in a working directory, each entry under the parts of its path. -/
structure Folder where
  entries : List (List String × Entry)

namespace Folder

/-- The longest part of a path, in octets. -/
def partLimit : Nat := 255

/-- The longest path is shorter than this number of octets. -/
def pathLimit : Nat := 4096

/-- The parts of a path between its slashes. -/
def partsOf
    (path : String) :
    List String :=
  path.splitOn "/"

/-- A working directory with files under the given paths; a path without a file is a directory. -/
def ofFiles
    (files : List (String × Option ByteArray)) :
    Folder where
  entries := files.map fun (path, octets?) =>
    (partsOf path, (octets?.map Entry.file).getD .directory)

/-- The directories below the root that every system has. -/
def systemDirectories : List String :=
  ["bin", "dev", "etc", "home", "lib", "opt", "proc", "root", "run", "sbin", "sys", "tmp", "usr",
    "var"]

/-- The entries below the root that every system has. -/
def systemEntry? : List String → Option Entry
  | [] => some .directory
  | [part] => if systemDirectories.contains part then some .directory else none
  | ["dev", "null"] => some (.file ByteArray.empty)
  | ["dev", "stdin"] => some .input
  | _ => none

/-- The entry at a place; a directory is there as soon as something stands in it. -/
def entry?
    (folder : Folder) :
    Place → Option Entry
  | .below [] => some .directory
  | .below reversed =>
      let parts := reversed.reverse
      match folder.entries.lookup parts with
      | some entry => some entry
      | none =>
          if folder.entries.any fun entry => parts.isPrefixOf entry.1 then
            some .directory
          else
            none
  | .above => some .directory
  | .rooted reversed => systemEntry? reversed.reverse

/-- Follow the parts of a path from a directory. -/
def follow
    (folder : Folder)
    (place : Place) :
    List String → Except OpenFault Entry
  | [] => .ok .directory
  | part :: rest =>
      if part = "" || part = "." then
        folder.follow place rest
      else if part = ".." then
        folder.follow place.parent rest
      else if partLimit < part.utf8ByteSize then
        .error .nameTooLong
      else
        match place.child? part with
        | none => .error .missing
        | some next =>
            match folder.entry? next, rest with
            | none, _ => .error .missing
            | some .directory, _ => folder.follow next rest
            | some entry, [] => .ok entry
            | some _, _ :: _ => .error .notDirectory

/-- The entry that a path leads to. -/
def find
    (folder : Folder)
    (path : String) :
    Except OpenFault Entry :=
  if path = "" then
    .error .missing
  else if pathLimit ≤ path.utf8ByteSize then
    .error .nameTooLong
  else
    match partsOf path with
    | "" :: parts => folder.follow (.rooted []) parts
    | parts => folder.follow (.below []) parts

/-- What a command with the given input reads from a path. -/
def content
    (folder : Folder)
    (input : ByteArray)
    (path : String) :
    FileContent :=
  match folder.find path with
  | .ok entry => entry.content input
  | .error fault => .unopened fault

/-- What is left of the input of a command that has read a path. -/
def inputLeft
    (folder : Folder)
    (input : ByteArray)
    (path : String) :
    ByteArray :=
  match folder.find path with
  | .ok .input => ByteArray.empty
  | _ => input

end Folder

end BlockScript.CommandLine
