import BlockScript.Source.Lexing

namespace BlockScript.Lexical

/-!
# The lexical grammar

The lexical grammar says which segment may stand at the front of a source, given
what follows it.  A segment is as long as its class allows: what follows a name
or a number does not go on with it, and what follows a mark does not make it
another one.  A string ends at the first quote behind its own, and a block
comment at the first `*/` behind its `/*`.
-/

/-- The first character of a text, if there is one, does not have a property. -/
def StopsAt
    (property : Char → Bool)
    (rest : List Char) :
    Prop :=
  ∀ c ∈ rest.head?, property c = false

/-- The characters behind a mark that make it another mark or begin a comment. -/
def continuations : Mark → List Char
  | .bang | .equal | .less | .greater => ['=']
  | .slash => ['/', '*']
  | _ => []

/-- The role of a written number: a token with the nearest double, or a fault beyond all doubles. -/
def numberRole
    (text : List Char) :
    Option Float → SegmentRole
  | some number => .token .number (.number number)
  | none => .fault (.badLiteral (.outOfRange (String.ofList text)))

/-- A run of at least one digit. -/
def IsDigits
    (digits : List Char) :
    Prop :=
  digits ≠ [] ∧ ∀ c ∈ digits, isDigit c = true

/-- A segment may stand at the front of a source, before the given rest. -/
inductive FirstSegment : Segment → List Char → Prop where
  | blank
      {c : Char}
      {rest : List Char}
      (listed : c ∈ [' ', '\r', '\t', '\n']) :
      FirstSegment { text := [c], role := .blank } rest
  | lineComment
      {body rest : List Char}
      (inLine : '\n' ∉ body)
      (ends : rest = [] ∨ ∃ others, rest = '\n' :: others) :
      FirstSegment { text := '/' :: '/' :: body, role := .comment } rest
  | blockComment
      {body rest : List Char}
      (first : ¬['*', '/'] <:+: body ++ ['*']) :
      FirstSegment { text := '/' :: '*' :: (body ++ ['*', '/']), role := .comment } rest
  | unterminatedComment
      {body : List Char}
      (never : ¬['*', '/'] <:+: body) :
      FirstSegment
        { text := '/' :: '*' :: body, role := .fault .unterminatedComment } []
  | mark
      {sign : Mark}
      {rest : List Char}
      (longest : StopsAt (continuations sign).contains rest) :
      FirstSegment { text := sign.spelling.toList, role := .token (.mark sign) .nil } rest
  | string
      {body rest : List Char}
      (first : '"' ∉ body) :
      FirstSegment
        { text := '"' :: (body ++ ['"'])
          role := .token .string (.string (String.ofList body)) } rest
  | unterminatedString
      {body : List Char}
      (never : '"' ∉ body) :
      FirstSegment { text := '"' :: body, role := .fault .unterminatedString } []
  | wholeNumber
      {digits rest : List Char}
      (whole : IsDigits digits)
      (longest : StopsAt isDigit rest)
      (noFraction : ∀ others, rest = '.' :: others → StopsAt isDigit others) :
      FirstSegment
        { text := digits
          role := numberRole digits (Decimal.ofParts digits []).toFloat? } rest
  | fractionalNumber
      {digits fraction rest : List Char}
      (whole : IsDigits digits)
      (part : IsDigits fraction)
      (longest : StopsAt isDigit rest) :
      FirstSegment
        { text := digits ++ '.' :: fraction
          role :=
            numberRole (digits ++ '.' :: fraction) (Decimal.ofParts digits fraction).toFloat? } rest
  | reservedWord
      {word : Keyword}
      {rest : List Char}
      (longest : StopsAt isNamePart rest) :
      FirstSegment
        { text := word.spelling.toList, role := .token (.keyword word) .nil } rest
  | identifier
      {first : Char}
      {others rest : List Char}
      (starts : isNameStart first = true)
      (goesOn : ∀ c ∈ others, isNamePart c = true)
      (notReserved : ∀ word : Keyword, word.spelling.toList ≠ first :: others)
      (longest : StopsAt isNamePart rest) :
      FirstSegment { text := first :: others, role := .token .identifier .nil } rest
  | unexpected
      {c : Char}
      {rest : List Char}
      (notBlank : c ∉ [' ', '\r', '\t', '\n'])
      (notMark : ∀ sign : Mark, sign.spelling.toList.head? ≠ some c)
      (notQuote : c ≠ '"')
      (notDigit : isDigit c = false)
      (notName : isNameStart c = false) :
      FirstSegment { text := [c], role := .fault .unexpectedCharacter } rest

/-- Consecutive segments that cover a source, each at the front of what is left. -/
inductive Partition : List Char → List Segment → Prop where
  | nil :
      Partition [] []
  | cons
      {segment : Segment}
      {segments : List Segment}
      {rest : List Char}
      (first : FirstSegment segment rest)
      (others : Partition rest segments) :
      Partition (segment.text ++ rest) (segment :: segments)

/--
The tokens and the errors that segments give, one after the other from a line on.
Each is on the line on which its segment ends, and the end of the input is on the
last line.
-/
inductive Gives : Nat → List Segment → List Token → List LexicalError → Prop where
  | finished
      {line : Nat} :
      Gives line [] [{ kind := .endOfInput, lexeme := "", literal := .nil, line }] []
  | skipped
      {line : Nat}
      {segment : Segment}
      {segments : List Segment}
      {tokens : List Token}
      {errors : List LexicalError}
      (role : segment.role = .blank ∨ segment.role = .comment)
      (others : Gives (line + Source.lineFeeds segment.text) segments tokens errors) :
      Gives line (segment :: segments) tokens errors
  | token
      {line : Nat}
      {segment : Segment}
      {segments : List Segment}
      {tokens : List Token}
      {errors : List LexicalError}
      {kind : Kind}
      {literal : Value}
      (role : segment.role = .token kind literal)
      (others : Gives (line + Source.lineFeeds segment.text) segments tokens errors) :
      Gives line (segment :: segments)
        ({ kind
           lexeme := String.ofList segment.text
           literal
           line := (line + Source.lineFeeds segment.text : Nat) } :: tokens)
        errors
  | fault
      {line : Nat}
      {segment : Segment}
      {segments : List Segment}
      {tokens : List Token}
      {errors : List LexicalError}
      {fault : LexicalFault}
      (role : segment.role = .fault fault)
      (others : Gives (line + Source.lineFeeds segment.text) segments tokens errors) :
      Gives line (segment :: segments) tokens
        ({ line := (line + Source.lineFeeds segment.text : Nat), fault } :: errors)

/-- Segments placed one after the other, each on the line on which it ends. -/
def placedFrom
    (line : Nat) :
    List Segment → List PlacedSegment
  | [] => []
  | segment :: others =>
      let ending := line + Source.lineFeeds segment.text
      { segment, line := ending } :: placedFrom ending others

/-- The segments of a partition are the source, one after the other. -/
theorem Partition.flatMap_text
    {source : List Char}
    {segments : List Segment}
    (partition : Partition source segments) :
    segments.flatMap Segment.text = source := by
  induction partition with
  | nil =>
      rfl
  | cons _ _ inductionHypothesis =>
      rw [List.flatMap_cons, inductionHypothesis]

end BlockScript.Lexical
