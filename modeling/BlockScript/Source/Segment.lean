import BlockScript.Token.Literal

namespace BlockScript

/-!
# Segments of a source

A source is cut into consecutive segments: single blanks, comments, tokens and
faulty pieces.  Each cut takes the longest segment of its class, except that a
string ends at the first quote and a block comment at the first `*/`.

`Segment.cut` takes one segment off a source that is not empty.  It loses
nothing (`Segment.cut_text`), so that cutting comes to an end.
-/

/-- Why a segment is not a token. -/
inductive LexicalFault where
  | unexpectedCharacter
  | unterminatedString
  | unterminatedComment
  | badLiteral (fault : LiteralFault)
  deriving Repr, DecidableEq

namespace LexicalFault

/-- The message for a faulty segment. -/
def message : LexicalFault → String
  | .unexpectedCharacter => "Unexpected character."
  | .unterminatedString => "Unterminated string."
  | .unterminatedComment => "Unterminated block comment."
  | .badLiteral fault => fault.message

end LexicalFault

/-- What a segment is. -/
inductive SegmentRole where
  | blank
  | comment
  | token (kind : Kind) (literal : Value)
  | fault (fault : LexicalFault)
  deriving Repr, DecidableEq

/-- A piece of a source with its role. -/
structure Segment where
  text : List Char
  role : SegmentRole
  deriving Repr, DecidableEq

/-- A space, a carriage return, a tab or a line feed. -/
def isBlank (c : Char) : Bool :=
  c == ' ' || c == '\r' || c == '\t' || c == '\n'

/-- An ASCII letter or the underscore. -/
def isNameStart (c : Char) : Bool :=
  ('a' ≤ c && c ≤ 'z') || ('A' ≤ c && c ≤ 'Z') || c == '_'

/-- A character that a name may hold after its first one. -/
def isNamePart (c : Char) : Bool :=
  isNameStart c || isDigit c

namespace Segment

/-- A segment that is a mark. -/
def ofMark
    (mark : Mark) :
    Segment where
  text :=
    mark.spelling.toList
  role :=
    .token (.mark mark) .nil

/-- The role of a text by the value that it has, or by the reason that it has none. -/
def roleOf
    (kind : Kind) :
    Except LiteralFault Value → SegmentRole
  | .ok literal => .token kind literal
  | .error fault => .fault (.badLiteral fault)

/-- A segment whose value follows from its text, or whose text has no value. -/
def ofLiteral
    (kind : Kind)
    (text : List Char) :
    Segment where
  text :=
    text
  role :=
    roleOf kind (Literal.ofLexeme kind (String.ofList text))

/-- A segment that is a name or a reserved word. -/
def ofName
    (text : List Char) :
    Segment where
  text :=
    text
  role :=
    match Keyword.ofSpelling? (String.ofList text) with
    | some word => .token (.keyword word) .nil
    | none => .token .identifier .nil

/-- The double mark when an equals sign follows, and the single one otherwise. -/
def cutMark
    (single double : Mark) :
    List Char → Segment × List Char
  | '=' :: rest => (ofMark double, rest)
  | rest => (ofMark single, rest)

/--
Split behind the first `*/`.  The characters before it are collected last first;
nothing is found when the text ends before.
-/
def splitComment?
    (before : List Char) :
    List Char → Option (List Char × List Char)
  | '*' :: '/' :: rest => some (before.reverse ++ ['*', '/'], rest)
  | c :: rest => splitComment? (c :: before) rest
  | [] => none

/-- What a slash begins: a comment up to the end of its line, a block comment, or a mark. -/
def cutSlash : List Char → Segment × List Char
  | '/' :: rest =>
      ({ text := '/' :: '/' :: rest.takeWhile (· != '\n'), role := .comment },
        rest.dropWhile (· != '\n'))
  | '*' :: rest =>
      match splitComment? [] rest with
      | some (body, after) => ({ text := '/' :: '*' :: body, role := .comment }, after)
      | none => ({ text := '/' :: '*' :: rest, role := .fault .unterminatedComment }, [])
  | rest => (ofMark .slash, rest)

/-- What a quote begins: a string up to the next quote, which the source may lack. -/
def cutString
    (rest : List Char) :
    Segment × List Char :=
  let body := rest.takeWhile (· != '"')
  match rest.dropWhile (· != '"') with
  | [] => ({ text := '"' :: body, role := .fault .unterminatedString }, [])
  | quote :: after => (ofLiteral .string ('"' :: body ++ [quote]), after)

/--
What a digit begins: a run of digits, and a point with a second run when a digit
follows the point.
-/
def cutNumber
    (first : Char)
    (rest : List Char) :
    Segment × List Char :=
  let whole := first :: rest.takeWhile isDigit
  match rest.dropWhile isDigit with
  | '.' :: digit :: after =>
      if isDigit digit then
        (ofLiteral .number (whole ++ '.' :: digit :: after.takeWhile isDigit),
          after.dropWhile isDigit)
      else
        (ofLiteral .number whole, '.' :: digit :: after)
  | after => (ofLiteral .number whole, after)

/-- What a letter or an underscore begins: the longest name. -/
def cutName
    (first : Char)
    (rest : List Char) :
    Segment × List Char :=
  (ofName (first :: rest.takeWhile isNamePart), rest.dropWhile isNamePart)

/-- The first segment of the source `first :: rest`, and what follows it. -/
def cut
    (first : Char)
    (rest : List Char) :
    Segment × List Char :=
  match first with
  | '(' => (ofMark .leftParen, rest)
  | ')' => (ofMark .rightParen, rest)
  | '{' => (ofMark .leftBrace, rest)
  | '}' => (ofMark .rightBrace, rest)
  | ',' => (ofMark .comma, rest)
  | '.' => (ofMark .dot, rest)
  | '-' => (ofMark .minus, rest)
  | '+' => (ofMark .plus, rest)
  | ';' => (ofMark .semicolon, rest)
  | '*' => (ofMark .star, rest)
  | '?' => (ofMark .question, rest)
  | ':' => (ofMark .colon, rest)
  | '!' => cutMark .bang .bangEqual rest
  | '=' => cutMark .equal .equalEqual rest
  | '<' => cutMark .less .lessEqual rest
  | '>' => cutMark .greater .greaterEqual rest
  | '/' => cutSlash rest
  | '"' => cutString rest
  | _ =>
      if isBlank first then
        ({ text := [first], role := .blank }, rest)
      else if isDigit first then
        cutNumber first rest
      else if isNameStart first then
        cutName first rest
      else
        ({ text := [first], role := .fault .unexpectedCharacter }, rest)

/-- Splitting behind a comment's end loses nothing. -/
theorem splitComment?_append
    {before source body after : List Char}
    (found : splitComment? before source = some (body, after)) :
    body ++ after = before.reverse ++ source := by
  fun_induction splitComment? before source with
  | case1 before rest =>
      simp only [Option.some.injEq, Prod.mk.injEq] at found
      simp [← found.1, ← found.2]
  | case2 before c rest _ inductionHypothesis =>
      simp [inductionHypothesis found]
  | case3 => simp at found

/-- A mark is cut with its own characters. -/
private theorem cutMark_text
    (single double : Mark)
    (c : Char)
    (singleText : single.spelling.toList = [c])
    (doubleText : double.spelling.toList = [c, '='])
    (rest : List Char) :
    (cutMark single double rest).1.text ++ (cutMark single double rest).2 = c :: rest := by
  unfold cutMark
  split <;> simp [ofMark, singleText, doubleText]

/-- What a slash begins is cut without loss. -/
private theorem cutSlash_text
    (rest : List Char) :
    (cutSlash rest).1.text ++ (cutSlash rest).2 = '/' :: rest := by
  unfold cutSlash
  split
  · simp
  · rename_i rest
    split
    · rename_i body after found
      simpa using splitComment?_append found
    · simp
  · simp [ofMark, Mark.spelling]

/-- A string is cut without loss. -/
private theorem cutString_text
    (rest : List Char) :
    (cutString rest).1.text ++ (cutString rest).2 = '"' :: rest := by
  have split := List.takeWhile_append_dropWhile (p := (· != '"')) (l := rest)
  unfold cutString
  cases tail : rest.dropWhile (· != '"') with
  | nil => simpa [tail] using split
  | cons quote after => simpa [tail, ofLiteral] using split

/-- A number is cut without loss. -/
private theorem cutNumber_text
    (first : Char)
    (rest : List Char) :
    (cutNumber first rest).1.text ++ (cutNumber first rest).2 = first :: rest := by
  have split := List.takeWhile_append_dropWhile (p := isDigit) (l := rest)
  unfold cutNumber
  dsimp only
  split
  · rename_i digit after tail
    rw [tail] at split
    split
    · simpa [ofLiteral] using split
    · simpa [ofLiteral] using split
  · simp [ofLiteral]

/-- A cut loses nothing. -/
theorem cut_text
    (first : Char)
    (rest : List Char) :
    (cut first rest).1.text ++ (cut first rest).2 = first :: rest := by
  unfold cut
  split
  case h_13 => exact cutMark_text _ _ _ (by decide) (by decide) rest
  case h_14 => exact cutMark_text _ _ _ (by decide) (by decide) rest
  case h_15 => exact cutMark_text _ _ _ (by decide) (by decide) rest
  case h_16 => exact cutMark_text _ _ _ (by decide) (by decide) rest
  case h_17 => exact cutSlash_text rest
  case h_18 => exact cutString_text rest
  case h_19 =>
    split
    · simp
    · split
      · exact cutNumber_text first rest
      · split
        · simp [cutName, ofName]
        · simp
  all_goals simp [ofMark, Mark.spelling]

/-- A segment is never empty. -/
theorem cut_text_ne_nil
    (first : Char)
    (rest : List Char) :
    (cut first rest).1.text ≠ [] := by
  unfold cut
  split
  case h_13 => unfold cutMark; split <;> simp [ofMark, Mark.spelling]
  case h_14 => unfold cutMark; split <;> simp [ofMark, Mark.spelling]
  case h_15 => unfold cutMark; split <;> simp [ofMark, Mark.spelling]
  case h_16 => unfold cutMark; split <;> simp [ofMark, Mark.spelling]
  case h_17 =>
    unfold cutSlash
    split
    · simp
    · split <;> simp
    · simp [ofMark, Mark.spelling]
  case h_18 => unfold cutString; dsimp only; split <;> simp [ofLiteral]
  case h_19 =>
    split
    · simp
    · split
      · unfold cutNumber
        dsimp only
        split
        · split <;> simp [ofLiteral]
        · simp [ofLiteral]
      · split
        · simp [cutName, ofName]
        · simp
  all_goals simp [ofMark, Mark.spelling]

/-- What follows a segment is shorter than the source it was cut from. -/
theorem cut_rest_length_le
    (first : Char)
    (rest : List Char) :
    (cut first rest).2.length ≤ rest.length := by
  have lengths := congrArg List.length (cut_text first rest)
  have positive := List.length_pos_iff.mpr (cut_text_ne_nil first rest)
  simp only [List.length_append, List.length_cons] at lengths
  omega

end Segment

end BlockScript
