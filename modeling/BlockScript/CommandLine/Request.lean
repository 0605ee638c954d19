import BlockScript.Settings.Basic

namespace BlockScript.CommandLine

/-!
# Requests

The words of a command are options and, behind them, operands.  They say whether a
script is run or a session with a prompt, and with which settings.
-/

/-- The options of a command, each a letter with its argument, and the words behind them. -/
structure Options where
  given : List (Char × String)
  operands : List String
  deriving Repr, DecidableEq

/-- What an option stands for. -/
inductive Flag where
  | help
  | echo
  | listTokens
  | listTree
  | settings (file : String)
  deriving Repr, DecidableEq

/-- What a letter with its argument stands for. -/
def Flag.ofOption : Char × String → Flag
  | ('c', file) => .settings file
  | ('e', _) => .echo
  | ('t', _) => .listTokens
  | ('a', _) => .listTree
  | _ => .help

/-- The flags given, in order, and the words after them. -/
structure Words where
  flags : List Flag
  operands : List String
  deriving Repr, DecidableEq

namespace Words

/-- The words that options and operands are. -/
def ofOptions
    (options : Options) :
    Words where
  flags := options.given.map Flag.ofOption
  operands := options.operands

/-- The file that settings are read from: the last one given, or else the default. -/
def settingsFile
    (default : String)
    (words : Words) :
    String :=
  words.flags.foldl
    (fun file flag =>
      match flag with
      | .settings given => given
      | .help | .echo | .listTokens | .listTree => file)
    default

/-- Settings with what the flags turn on. -/
def apply
    (words : Words)
    (settings : Settings) :
    Settings :=
  { settings with
    echo := settings.echo || words.flags.contains .echo
    listings :=
      { tokens := settings.listings.tokens || words.flags.contains .listTokens
        tree := settings.listings.tree || words.flags.contains .listTree } }

end Words

/-- What a command asks for. -/
inductive Request where
  /-- The options cannot be read. -/
  | refuse (message : String)
  /-- The usage is asked for. -/
  | help
  /-- There are too many operands. -/
  | misuse
  /-- Units are read from the prompt. -/
  | prompt (words : Words)
  /-- One unit is read from a file. -/
  | script (words : Words) (file : String)
  deriving Repr, DecidableEq

namespace Request

/-- What a command asks for, once its options are read. -/
def ofOptions : Except String Options → Request
  | .error message => .refuse message
  | .ok options =>
      let words := Words.ofOptions options
      if words.flags.contains .help then
        .help
      else
        match words.operands with
        | [] => .prompt words
        | [file] => .script words file
        | _ => .misuse

end Request

/-- The lines of the usage of the command. -/
def usageLines : List String :=
  ["Usage: bagel [-h] [-e] [-t] [-a] [-c config] [script]",
    "",
    "options:",
    "  -c FILE  read settings from FILE (default $BAGEL_CONFIG)",
    "  -e       print the value of expression statements in the prompt",
    "  -t       dump tokens to stderr before parsing",
    "  -a       dump the syntax tree to stderr before executing",
    "  -h       show this help"]

/-- The usage of the command. -/
def usage : String :=
  String.join (usageLines.map (· ++ "\n"))

end BlockScript.CommandLine
