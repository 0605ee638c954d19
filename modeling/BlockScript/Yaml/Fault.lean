namespace BlockScript.Yaml

/-!
# What keeps a text from being a document

A fault is either one of the characters, so that they form no part of a document
at all, or one of their arrangement.  It has two lines: that on which the
construct in question begins, and that on which it cannot go on.
-/

/-- Why octets are not well-formed in their encoding, UTF-8 or UTF-16. -/
inductive OctetFault where
  | leading
  | incomplete
  | trailing
  | overlong
  | codePoint
  | incompleteUnit
  | strayLowSurrogate
  | incompletePair
  | expectLowSurrogate
  deriving Repr, DecidableEq

/-- Why a text is not a document. -/
inductive Fault where
  | octets (fault : OctetFault)
  | control
  | noToken
  | noDirectiveName
  | directiveNotAlphabetic
  | unknownDirective
  | noVersion
  | longVersion
  | noVersionPoint
  | expectSpace
  | expectBlank
  | expectTagMark
  | noTagSuffix
  | openTag
  | expectEscapedOctet
  | escapedLeading
  | escapedTrailing
  | noAnchorName
  | keyNotAllowed
  | valueNotAllowed
  | itemNotAllowed
  | tooDeep
  | expectColon
  | unclosedQuote
  | markerInQuotes
  | unknownEscape
  | expectHexadecimal
  | escapedSurrogate
  | tabInPlain
  | tabInBlock
  | zeroIndentation
  | expectLineBreak
  | expectKey
  | expectDash
  | expectNode
  | expectCommaOrBracket
  | expectCommaOrBrace
  | expectDocument
  | repeatedVersion
  | otherVersion
  | repeatedHandle
  | unknownHandle
  | unknownAnchor (name : String)
  deriving Repr, DecidableEq

namespace OctetFault

/-- The message for octets that are not well-formed. -/
def message : OctetFault → String
  | .leading => "invalid leading UTF-8 octet"
  | .incomplete => "incomplete UTF-8 octet sequence"
  | .trailing => "invalid trailing UTF-8 octet"
  | .overlong => "invalid length of a UTF-8 sequence"
  | .codePoint => "invalid Unicode character"
  | .incompleteUnit => "incomplete UTF-16 character"
  | .strayLowSurrogate => "unexpected low surrogate area"
  | .incompletePair => "incomplete UTF-16 surrogate pair"
  | .expectLowSurrogate => "expected low surrogate area"

end OctetFault

namespace Fault

/-- The message for a text that is not a document. -/
def message : Fault → String
  | .octets fault => fault.message
  | .control => "control characters are not allowed"
  | .noToken => "found character that cannot start any token"
  | .noDirectiveName => "could not find expected directive name"
  | .directiveNotAlphabetic => "found unexpected non-alphabetical character"
  | .unknownDirective => "found unknown directive name"
  | .noVersion => "did not find expected version number"
  | .longVersion => "found extremely long version number"
  | .noVersionPoint => "did not find expected digit or '.' character"
  | .expectSpace => "did not find expected whitespace"
  | .expectBlank => "did not find expected whitespace or line break"
  | .expectTagMark => "did not find expected '!'"
  | .noTagSuffix => "did not find expected tag URI"
  | .openTag => "did not find the expected '>'"
  | .expectEscapedOctet => "did not find URI escaped octet"
  | .escapedLeading => "found an incorrect leading UTF-8 octet"
  | .escapedTrailing => "found an incorrect trailing UTF-8 octet"
  | .noAnchorName => "did not find expected alphabetic or numeric character"
  | .keyNotAllowed => "mapping keys are not allowed in this context"
  | .valueNotAllowed => "mapping values are not allowed in this context"
  | .itemNotAllowed => "block sequence entries are not allowed in this context"
  | .tooDeep => "exceeded max depth of 10000"
  | .expectColon => "could not find expected ':'"
  | .unclosedQuote => "found unexpected end of stream"
  | .markerInQuotes => "found unexpected document indicator"
  | .unknownEscape => "found unknown escape character"
  | .expectHexadecimal => "did not find expected hexdecimal number"
  | .escapedSurrogate => "found invalid Unicode character escape code"
  | .tabInPlain => "found a tab character that violates indentation"
  | .tabInBlock => "found a tab character where an indentation space is expected"
  | .zeroIndentation => "found an indentation indicator equal to 0"
  | .expectLineBreak => "did not find expected comment or line break"
  | .expectKey => "did not find expected key"
  | .expectDash => "did not find expected '-' indicator"
  | .expectNode => "did not find expected node content"
  | .expectCommaOrBracket => "did not find expected ',' or ']'"
  | .expectCommaOrBrace => "did not find expected ',' or '\x7d'"
  | .expectDocument => "did not find expected <document start>"
  | .repeatedVersion => "found duplicate %YAML directive"
  | .otherVersion => "found incompatible YAML document"
  | .repeatedHandle => "found duplicate %TAG directive"
  | .unknownHandle => "found undefined tag handle"
  | .unknownAnchor name => "unknown anchor '" ++ name ++ "' referenced"

/-- Whether a fault is one of the arrangement of a document, whose characters are well-formed. -/
def isArrangement : Fault → Bool
  | .expectKey
  | .expectDash
  | .expectNode
  | .expectCommaOrBracket
  | .expectCommaOrBrace
  | .expectDocument
  | .repeatedVersion
  | .otherVersion
  | .repeatedHandle
  | .unknownHandle
  | .unknownAnchor _ => true
  | _ => false

end Fault

/-- A fault with its two lines, counted from one; a fault without a line has zero for both. -/
structure Malformation where
  fault : Fault
  /-- The line on which the construct begins that has the fault. -/
  begun : Nat
  /-- The line on which the construct cannot go on. -/
  stuck : Nat
  deriving Repr, DecidableEq

namespace Malformation

/-- A fault without a line. -/
def anywhere
    (fault : Fault) :
    Malformation where
  fault := fault
  begun := 0
  stuck := 0

/-- A fault of a single place. -/
def onLine
    (fault : Fault)
    (line : Nat) :
    Malformation where
  fault := fault
  begun := line
  stuck := line

/-- The line that a message speaks of: the first of the two lines that is not line one. -/
def line
    (malformation : Malformation) :
    Nat :=
  if 1 < malformation.begun then malformation.begun else malformation.stuck

/--
The message for a text that is not a document.  A fault of the characters is
shown with its line, one of the arrangement with the number of lines before it,
and neither with line one.
-/
def message
    (malformation : Malformation) :
    String :=
  let line := malformation.line
  if line ≤ 1 then
    malformation.fault.message
  else
    let shown := if malformation.fault.isArrangement then line - 1 else line
    "line " ++ Nat.repr shown ++ ": " ++ malformation.fault.message

end Malformation

end BlockScript.Yaml
