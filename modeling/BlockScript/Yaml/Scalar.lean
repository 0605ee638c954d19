import BlockScript.Yaml.Comment

namespace BlockScript.Yaml

/-!
# Scalars

Plain and quoted scalars may go on over several lines, whose breaks are folded:
one break becomes a space, and each further one a line feed.  Block scalars keep
their lines, or fold those that begin without a space.  A line or paragraph
separator is a line break too, but stays as it is where a line feed would become
a space.
-/

/-- A scalar as far as it has been read; all characters are held last first. -/
structure Folding where
  found : List Char := []
  /-- The spaces and tabs behind what was found. -/
  spaces : List Char := []
  /-- The first line break behind what was found. -/
  firstBreak : List Char := []
  /-- The line breaks behind the first one. -/
  moreBreaks : List Char := []
  /-- Whether a line break stands behind what was found. -/
  broken : Bool := false
  deriving Repr

namespace Folding

/-- What the blanks behind the characters found contribute, the last character first. -/
def gap
    (folding : Folding) :
    List Char :=
  if folding.broken then
    if folding.firstBreak = ['\n'] then
      if folding.moreBreaks.isEmpty then [' '] else folding.moreBreaks
    else
      folding.moreBreaks ++ folding.firstBreak
  else
    folding.spaces

/-- The scalar with its gap, and nothing behind it. -/
def joined
    (folding : Folding) :
    Folding where
  found := folding.gap ++ folding.found

/-- The scalar with one more character. -/
def add
    (c : Char)
    (folding : Folding) :
    Folding :=
  { folding with found := c :: folding.found }

/-- The scalar with one more space or tab behind it, which counts for nothing behind a break. -/
def addSpace
    (c : Char)
    (folding : Folding) :
    Folding :=
  if folding.broken then folding else { folding with spaces := c :: folding.spaces }

/-- The scalar with one more line break behind it. -/
def addBreak
    (characters : List Char)
    (folding : Folding) :
    Folding :=
  if folding.broken then
    { folding with moreBreaks := characters ++ folding.moreBreaks }
  else
    { folding with spaces := [], firstBreak := characters, broken := true }

/-- The text of the scalar. -/
def text
    (folding : Folding) :
    String :=
  String.ofList folding.found.reverse

end Folding

namespace Tokenizing

/--
Read the blanks behind a part of a scalar that begins on line `start`.  No tab may
stand before the given column.
-/
def readGap
    (start column : Nat)
    (folding : Folding) :
    Tokenizing Folding :=
  loop folding fun folding => do
    let c ← current
    if isSpace c then
      if folding.broken && c == '\t' && (← position).column < column then
        fail .tabInPlain start
      let _ ← read
      ensure 1
      return .again (folding.addSpace c)
    else if isBreak c then
      ensure 2
      let characters ← readBreak
      ensure 1
      return .again (folding.addBreak characters)
    else
      return .done folding

/-- Whether a plain scalar ends at the position, at a character that is not blank. -/
def endsPlain : Tokenizing Bool := do
  let c ← current
  return (c == ':' && isBlank (← ahead 1)) ||
    (0 < (← get).depth && [',', '?', '[', ']', '{', '}'].contains c)

/-- Read the characters of a plain scalar up to a blank. -/
def readPlainWord
    (folding : Folding) :
    Tokenizing Folding :=
  loop folding fun folding => do
    if isBlank (← current) || (← endsPlain) then
      return .done folding
    else
      let c ← read
      ensure 2
      return .again (folding.joined.add c)

/--
Read a plain scalar.  Outside flow collections its further lines must not stand
before the margin.
-/
def readPlain : Tokenizing String := do
  let start := (← position).line
  let margin := (← get).margin
  let folding ← loop {} fun folding => do
    ensure 4
    if (← atDocumentMark) || (← current) == '#' then
      return .done folding
    let folding ← readPlainWord folding
    let c ← current
    if isSpace c || isBreak c then
      ensure 1
      let folding ← readGap start margin folding
      if (← get).depth == 0 && (← position).column < margin then
        return .done folding
      else
        return .again folding
    else
      return .done folding
  if folding.broken then
    allowKey true
  return folding.text

/-- The character that a one-letter escape stands for. -/
def escaped? : Char → Option Char
  | '0' => some '\x00'
  | 'a' => some '\x07'
  | 'b' => some '\x08'
  | 't' => some '\t'
  | '\t' => some '\t'
  | 'n' => some '\n'
  | 'v' => some '\x0b'
  | 'f' => some '\x0c'
  | 'r' => some '\r'
  | 'e' => some '\x1b'
  | ' ' => some ' '
  | '"' => some '"'
  | '\'' => some '\''
  | '\\' => some '\\'
  | 'N' => some '\u0085'
  | '_' => some '\u00a0'
  | 'L' => some '\u2028'
  | 'P' => some '\u2029'
  | _ => none

/-- The number of digits after the letter of a code point escape. -/
def codeLength? : Char → Option Nat
  | 'x' => some 2
  | 'u' => some 4
  | 'U' => some 8
  | _ => none

/-- The code point with the given digits before the position and this number of digits behind it. -/
def codeAhead
    (start value distance : Nat) :
    Nat → Tokenizing Nat
  | 0 => return value
  | count + 1 => do
      match digit? 16 (← ahead distance) with
      | some digit => codeAhead start (16 * value + digit) (distance + 1) count
      | none => fail .expectHexadecimal start

/-- Read an escape, whose backslash stands at the position. -/
def readEscape
    (start : Nat) :
    Tokenizing Char := do
  let letter ← ahead 1
  match escaped? letter, codeLength? letter with
  | some c, _ =>
      skip 2
      return c
  | none, some length =>
      skip 2
      ensure length
      let code ← codeAhead start 0 0 length
      if (0xD800 ≤ code && code ≤ 0xDFFF) || 0x10FFFF < code then
        fail .escapedSurrogate start
      skip length
      return Char.ofNat code
  | none, none => fail .unknownEscape start

/-- Read the characters of a quoted scalar up to a blank, its closing quote or an escaped break. -/
def readQuotedWord
    (quote : Char)
    (start : Nat)
    (folding : Folding) :
    Tokenizing Folding :=
  loop folding fun folding => do
    let c ← current
    let next ← ahead 1
    if isBlank c then
      return .done folding
    else if c == quote then
      if quote == '\'' && next == '\'' then
        skip 2
        ensure 2
        return .again (folding.add '\'')
      else
        return .done folding
    else if quote == '"' && c == '\\' then
      if isBreak next then
        ensure 3
        skip 1
        skipBreak
        return .done { folding with broken := true }
      else
        let c ← readEscape start
        ensure 2
        return .again (folding.add c)
    else
      let c ← read
      ensure 2
      return .again (folding.add c)

/-- Read a quoted scalar, whose opening quote stands at the position. -/
def readQuoted
    (quote : Char) :
    Tokenizing String := do
  let start := (← position).line
  skip 1
  let folding ← loop {} fun folding => do
    ensure 4
    if ← atDocumentMark then
      fail .markerInQuotes start
    if (← current) == endMark then
      fail .unclosedQuote start
    let folding ← readQuotedWord quote start folding
    ensure 1
    if (← current) == quote then
      return .done folding
    else
      let folding ← readGap start 0 folding
      return .again folding.joined
  skip 1
  return folding.text

/-- What becomes of the line breaks at the end of a block scalar. -/
inductive Chomping where
  | strip
  | clip
  | keep
  deriving Repr, DecidableEq

/-- Read a chomping mark, if there is one. -/
def readChomping : Tokenizing (Option Chomping) := do
  match ← current with
  | '+' =>
      skip 1
      return some .keep
  | '-' =>
      skip 1
      return some .strip
  | _ => return none

/-- Read an indentation mark of a block scalar, if there is one. -/
def readIndentation
    (start : Nat) :
    Tokenizing (Option Nat) := do
  let c ← current
  if isDigit c then
    if c == '0' then
      fail .zeroIndentation start
    skip 1
    return some (c.toNat - '0'.toNat)
  else
    return none

/-- Read the marks behind the sign of a block scalar, which may come in any order. -/
def readBlockMarks
    (start : Nat) :
    Tokenizing (Chomping × Option Nat) := do
  ensure 1
  match ← readChomping with
  | some chomping =>
      ensure 1
      return (chomping, ← readIndentation start)
  | none =>
      match ← readIndentation start with
      | some indentation =>
          ensure 1
          return ((← readChomping).getD .clip, some indentation)
      | none => return (.clip, none)

/-- Whether the column is inside the indentation; without one, every column is. -/
def insideIndentation
    (indentation : Option Nat) :
    Tokenizing Bool := do
  return indentation.all ((← position).column < ·)

/-- The blanks before a line of a block scalar. -/
structure Margin where
  /-- The greatest column that was reached. -/
  column : Nat := 0
  /-- The line breaks, the last one first. -/
  breaks : List Char := []

/--
Read the indentation of a block scalar's next line and the blank lines before it.
If the indentation is not known, it is found here.
-/
def readMargin
    (start : Nat)
    (indentation : Option Nat) :
    Tokenizing (Nat × List Char) := do
  let margin ← loop ({} : Margin) fun margin => do
    ensure 1
    loop () fun _ => do
      if (← current) == ' ' && (← insideIndentation indentation) then
        skip 1
        ensure 1
        return .again ()
      else
        return .done ()
    let column := max margin.column (← position).column
    if (← current) == '\t' && (← insideIndentation indentation) then
      fail .tabInBlock start
    if isBreak (← current) then
      ensure 2
      let characters ← readBreak
      return .again { column, breaks := characters ++ margin.breaks }
    else
      return .done { margin with column }
  let least := max (← get).margin 1
  return (indentation.getD (max margin.column least), margin.breaks)

/-- A block scalar as far as it has been read; all characters are held last first. -/
structure BlockText where
  found : List Char := []
  /-- The line break behind the last line of text. -/
  lineBreak : List Char := []
  /-- The line breaks of the blank lines behind that. -/
  blankLines : List Char
  /-- Whether the last line of text begins with a blank. -/
  indented : Bool := false

namespace BlockText

/-- The block scalar with the breaks before its next line of text. -/
def joined
    (folded indented : Bool)
    (block : BlockText) :
    List Char :=
  let lineBreak :=
    if folded && !block.indented && !indented && block.lineBreak = ['\n'] then
      if block.blankLines.isEmpty then [' '] else []
    else
      block.lineBreak
  block.blankLines ++ lineBreak ++ block.found

/-- The text of a block scalar with its last line breaks as asked. -/
def text
    (chomping : Chomping)
    (block : BlockText) :
    String :=
  let reversed :=
    match chomping with
    | .strip => block.found
    | .clip => block.lineBreak ++ block.found
    | .keep => block.blankLines ++ block.lineBreak ++ block.found
  String.ofList reversed.reverse

end BlockText

/-- Read a block scalar, whose sign stands at the position. -/
def readBlock
    (folded : Bool) :
    Tokenizing String := do
  let start := (← position).line
  skip 1
  let (chomping, increment?) ← readBlockMarks start
  skipWhile isSpace
  if (← current) == '#' then
    skipLineComment
    loop () fun _ => do
      if isLineEnd (← current) then
        return .done ()
      else
        skip 1
        ensure 1
        return .again ()
  if !isLineEnd (← current) then
    fail .expectLineBreak start
  if isBreak (← current) then
    ensure 2
    skipBreak
  let outer := (← get).margin - 1
  let (indentation, blankLines) ← readMargin start (increment?.map (outer + ·))
  ensure 1
  let block ← loop ({ blankLines } : BlockText) fun block => do
    let c ← current
    if (← position).column == indentation && c != endMark then
      let indented := isSpace c
      let joined := block.joined folded indented
      let found ← loop joined fun found => do
        if isLineEnd (← current) then
          return .done found
        else
          let c ← read
          ensure 1
          return .again (c :: found)
      ensure 2
      let lineBreak ← readBreak
      let (_, blankLines) ← readMargin start (some indentation)
      return .again { found, lineBreak, blankLines, indented }
    else
      return .done block
  return block.text chomping

end Tokenizing

end BlockScript.Yaml
