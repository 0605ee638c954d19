import BlockScript.CommandLine.Request

namespace BlockScript.CommandLine

/-!
# Options

Options are single letters behind a dash.  Several may share one dash, and the
argument of an option is the rest of its word or else the next word.  The first
word that is not an option ends them, and so does a double dash.
-/

/-- Why options cannot be read. -/
inductive OptionFault where
  | unknown (letter : Char)
  | missingArgument (letter : Char)
  deriving Repr, DecidableEq

namespace OptionFault

/-- The message for options that cannot be read. -/
def message : OptionFault → String
  | .unknown letter => "bagel: unknown option -" ++ letter.toString
  | .missingArgument letter => "bagel: expected argument for -" ++ letter.toString

end OptionFault

/-- The options of one word, and whether the last one takes the next word as its argument. -/
structure Cluster where
  given : List (Char × String)
  awaitsArgument : Bool
  deriving Repr, DecidableEq

namespace Cluster

/-- A cluster with one more letter before it. -/
def after
    (letter : Char)
    (cluster : Cluster) :
    Cluster :=
  { cluster with given := (letter, "") :: cluster.given }

/-- Read the letters of one word. -/
def read : List Char → Except OptionFault Cluster
  | [] => .ok { given := [], awaitsArgument := false }
  | 'c' :: [] => .ok { given := [], awaitsArgument := true }
  | 'c' :: rest => .ok { given := [('c', String.ofList rest)], awaitsArgument := false }
  | letter :: rest =>
      if letter ∈ ['h', 'e', 't', 'a'] then
        (read rest).map (after letter)
      else
        .error (.unknown letter)

end Cluster

namespace Options

/-- Options with more options before them. -/
def after
    (given : List (Char × String))
    (options : Options) :
    Options :=
  { options with given := given ++ options.given }

/-- Read the words of a command. -/
def read : List String → Except OptionFault Options
  | [] => .ok { given := [], operands := [] }
  | word :: rest =>
      match word.toList with
      | ['-', '-'] => .ok { given := [], operands := rest }
      | '-' :: letter :: letters =>
          match Cluster.read (letter :: letters) with
          | .error fault => .error fault
          | .ok cluster =>
              if cluster.awaitsArgument then
                match rest with
                | [] => .error (.missingArgument 'c')
                | argument :: behind =>
                    (read behind).map (after (cluster.given ++ [('c', argument)]))
              else
                (read rest).map (after cluster.given)
      | _ => .ok { given := [], operands := word :: rest }

end Options

end BlockScript.CommandLine
