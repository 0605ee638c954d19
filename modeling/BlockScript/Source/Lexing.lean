import BlockScript.Source.Segment

namespace BlockScript

/-!
# The tokens and faults of a source

Cutting a source to its end gives its segments in order.  Each segment is placed
on the line on which it ends: one more than the number of line feeds up to its
end.  The tokens and the lexical errors of the source are the token segments and
the faulty segments, so that errors never keep later text from being read.
-/

/-- A segment with the line on which it ends. -/
structure PlacedSegment where
  segment : Segment
  line : Nat
  deriving Repr, DecidableEq

/-- A faulty segment of a source, by the line on which it ends. -/
structure LexicalError where
  line : Int
  fault : LexicalFault
  deriving Repr, DecidableEq

namespace PlacedSegment

/-- The token that a segment is. -/
def token?
    (placed : PlacedSegment) :
    Option Token :=
  match placed.segment.role with
  | .token kind literal =>
      some {
        kind
        lexeme := String.ofList placed.segment.text
        literal
        line := placed.line }
  | .blank | .comment | .fault _ => none

/-- The error that a segment is. -/
def error?
    (placed : PlacedSegment) :
    Option LexicalError :=
  match placed.segment.role with
  | .fault fault => some { line := placed.line, fault }
  | .blank | .comment | .token .. => none

end PlacedSegment

namespace Source

/-- The number of line feeds in a text. -/
def lineFeeds
    (text : List Char) :
    Nat :=
  text.count '\n'

/--
Cut a source to its end, beginning on the given line.  The segments found before
are held last first.
-/
def segmentsFrom
    (line : Nat)
    (found : List PlacedSegment) :
    List Char → List PlacedSegment
  | [] => found.reverse
  | first :: rest =>
      let cut := Segment.cut first rest
      let ending := line + lineFeeds cut.1.text
      segmentsFrom ending ({ segment := cut.1, line := ending } :: found) cut.2
termination_by source => source.length
decreasing_by
  exact Nat.lt_succ_of_le (Segment.cut_rest_length_le first rest)

/-- The segments of a source in order, beginning on line one. -/
def segments
    (source : List Char) :
    List PlacedSegment :=
  segmentsFrom 1 [] source

/-- The token that marks the end of a source, on the line after its last line feed. -/
def endToken
    (source : List Char) :
    Token where
  kind :=
    .endOfInput
  lexeme :=
    ""
  literal :=
    .nil
  line :=
    1 + lineFeeds source

end Source

/-- The tokens of a source, the end included, and its lexical errors. -/
structure Lexing where
  tokens : List Token
  errors : List LexicalError
  deriving Repr, DecidableEq

namespace Lexing

/-- Read the tokens and the lexical errors off the segments of a source. -/
def ofSource
    (source : List Char) :
    Lexing :=
  let segments := Source.segments source
  { tokens := segments.filterMap PlacedSegment.token? ++ [Source.endToken source]
    errors := segments.filterMap PlacedSegment.error? }

end Lexing

end BlockScript
