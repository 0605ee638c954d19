import BlockScript.Yaml.Tokenizer

namespace BlockScript.Yaml

/-!
# Blanks and comments between tokens

A comment behind a token on the same line is passed over together with the token.
Other comments are passed over with the blanks before the next token; several
comments with nothing but blanks between them are passed over at once, and tabs
may stand before all of them but the first.

Comments belong to what follows them.  They belong to what stands before them
instead if they begin right below it and a blank line follows, if they are
indented less than the collection around them and a blank line follows, if what
follows is indented less than they are, and at the end of a flow collection.
-/

/-- The comments that are being passed over. -/
structure Commenting where
  /-- How far ahead of the position the next character is. -/
  distance : Nat := 0
  /-- The line of that character. -/
  line : Nat
  /-- The column before that character, counted from one. -/
  column : Nat
  /-- The text of the comments that belong together, the last character first. -/
  text : List Char := []
  /-- Where that text begins, its column counted from one. -/
  start : Position
  /-- Whether a line break has been passed since the last comment. -/
  afterBreak : Bool := false
  /-- Whether no blank line has been passed. -/
  adjoining : Bool

namespace Commenting

/-- Comments that belong to what stands before them. -/
def dropped
    (commenting : Commenting) :
    Commenting :=
  { commenting with text := [] }

/-- The comments with one more character of text, if there is any text. -/
def extended
    (c : Char)
    (commenting : Commenting) :
    Commenting :=
  if commenting.text.isEmpty then
    commenting
  else
    { commenting with text := c :: commenting.text }

/-- Whether the comments are indented less than the given column. -/
def isBefore
    (column : Nat)
    (commenting : Commenting) :
    Bool :=
  commenting.start.column ≤ column

/--
What becomes of the comments at the end of a line.  The line below the last token
is given if there is one on which a comment may still belong to the token.
-/
def atLineEnd
    (indentation : Nat)
    (lineBelow? : Option Nat)
    (ended : Bool)
    (commenting : Commenting) :
    Commenting :=
  if commenting.afterBreak then
    commenting
  else if commenting.adjoining &&
      (lineBelow? = some commenting.start.line || commenting.isBefore indentation) then
    commenting.dropped
  else if ended then
    commenting
  else
    commenting.extended '\n'

/-- The comments behind a line break. -/
def passedBreak
    (commenting : Commenting) :
    Commenting :=
  { commenting with
    distance := commenting.distance + 1
    line := commenting.line + 1
    column := 0
    afterBreak := true
    adjoining := false }

/-- What becomes of the comments before a character that is not blank. -/
def beforeCharacter
    (indentation : Nat)
    (commenting : Commenting) :
    Commenting :=
  if commenting.column < indentation && commenting.column + 1 ≠ commenting.start.column then
    commenting.dropped
  else
    commenting

end Commenting

namespace Tokenizing

/-- The distance in which a comment is looked for. -/
def commentDistance : Nat := 512

/-- Read everything up to the end of the line of the character with the given index. -/
def readThrough
    (index : Nat) :
    Tokenizing (List Char) :=
  loop [] fun found => do
    ensure 1
    if isLineEnd (← current) then
      if index ≤ (← position).index then
        return .done found
      else
        ensure 2
        skipBreak
        return .again found
    else
      let counts := index ≤ (← position).index
      let c ← read
      return .again (if counts then c :: found else found)

/-- Pass over a comment behind a token on the same line. -/
def skipLineComment : Tokenizing Unit := do
  if (← get).breaks == 0 then
    let _ ← loop 0 fun distance => do
      if commentDistance ≤ distance || !(← tryEnsure (distance + 1)) then
        return .done distance
      let c ← ahead distance
      if isSpace c then
        return .again (distance + 1)
      if c == '#' then
        let _ ← readThrough ((← position).index + distance)
      return .done distance

/-- A line break that no further comment is looked for behind. -/
def isWideBreak (c : Char) : Bool :=
  c == '\u0085' || c == '\u2028' || c == '\u2029'

/-- The kind of the token that a comment may belong to. -/
def commentedKind? : Tokenizing (Option TokenKind) := do
  match (← get).queue.reverse.map Token.kind with
  | .flowEntry :: kind :: _ => return some kind
  | kind :: _ => return some kind
  | [] => return none

/--
The line below the last token, on which a comment belongs to the token if a blank
line follows.  There is none behind the colon of a value and on the first line.
-/
def lineBelow?
    (scanned : Position) :
    Tokenizing (Option Nat) := do
  let tokenizer ← get
  if scanned.line ≤ 1 || (← commentedKind?) = some .value then
    return none
  else
    let line := tokenizer.position.line + 1 - tokenizer.breaks
    return some (if tokenizer.breaks = 0 && 1 < tokenizer.position.column then line + 1 else line)

/-- Read a comment at the given distance and go on behind it. -/
def readComment
    (commenting : Commenting) :
    Tokenizing Commenting := do
  let here ← position
  let index := here.index + commenting.distance
  let commenting :=
    if commenting.text.isEmpty then
      { commenting with
        start := { index, line := commenting.line, column := commenting.column + 1 } }
    else
      commenting.extended '\n'
  let text ← readThrough index
  return { commenting with
    distance := 1
    line := (← position).line
    column := 0
    text := text ++ commenting.text
    afterBreak := false }

/--
Pass over a comment at the position and the comments behind it.  The position is
given from which the next token is looked for.
-/
def skipComments
    (scanned : Position) :
    Tokenizing Unit := do
  let tokenizer ← get
  let here := tokenizer.position
  let indentation := tokenizer.margin - 1
  let lineBelow? ← lineBelow? scanned
  let initial : Commenting :=
    { line := here.line
      column := here.column
      start := here
      adjoining := tokenizer.breaks ≤ 1 }
  let commenting ← loop initial fun commenting => do
    let distance := commenting.distance
    if commentDistance ≤ distance || !(← tryEnsure (distance + 1)) then
      return .done commenting
    let c ← ahead distance
    if 0 < distance && isWideBreak (← ahead (distance - 1)) then
      return .done (commenting.beforeCharacter indentation)
    else if isSpace c then
      return .again { commenting with distance := distance + 1, column := commenting.column + 1 }
    else if 0 < tokenizer.depth && (c == ']' || c == '}') then
      return .done commenting.dropped
    else if isLineEnd c then
      let commenting := commenting.atLineEnd indentation lineBelow? (c == endMark)
      if isBreak c then
        return .again commenting.passedBreak
      else
        return .done commenting
    else
      let commenting := commenting.beforeCharacter indentation
      if c == '#' then
        return .again (← readComment commenting)
      else
        return .done commenting
  if !commenting.text.isEmpty then
    modify fun tokenizer =>
      { tokenizer with
        remarks :=
          tokenizer.remarks ++
            [{ index := commenting.start.index, text := commenting.text.reverse }] }

/--
Pass over the blanks and comments before the next token.  Outside flow
collections a tab may not stand where a key may begin, and a line break makes a
key possible.  A byte order mark may stand at the beginning of a line.
-/
def skipToToken : Tokenizing Unit := do
  let scanned ← position
  loop () fun _ => do
    ensure 1
    if (← position).column == 0 && (← get).input.front == '\uFEFF' then
      skip 1
    let tabs := 0 < (← get).depth || !(← get).keyAllowed
    skipWhile fun c => c == ' ' || (tabs && c == '\t')
    if (← current) == '#' then
      skipComments scanned
    if isBreak (← current) then
      ensure 2
      skipBreak
      if (← get).depth == 0 then
        allowKey true
      return .again ()
    else
      return .done ()

end Tokenizing

end BlockScript.Yaml
