import BlockScript.Source.Lexing
import BlockScript.Proofs.Machine.Node

namespace BlockScript.Machine

/-!
# Taking a source apart

The machine reads the tokens of a source with two positions: where the text that
is being read began, and what comes next.  Taking a character, looking at one and
taking the text between the positions are only possible inside the source.  Looking
ahead at the end gives the character with the code zero, so that a loop stops there
only if it does not pass that character, or asks whether the source has ended.
-/

/-- The two positions, the line of the second, and what has been found. -/
structure Scanner where
  start : Nat
  current : Nat
  line : Nat
  tokens : List Token
  errors : List LexicalError
  deriving Repr, DecidableEq

/-- A procedure that moves the positions. -/
abbrev Scan := StateT Scanner (ExceptT Misstep Option)

/-- A procedure comes to an end without a misstep. -/
def Scan.Comes
    {α : Type}
    (procedure : Scan α)
    (scanner : Scanner)
    (value : α)
    (after : Scanner) :
    Prop :=
  procedure.run scanner = some (.ok (value, after))

/-- A procedure comes to the same end however deep it may go from some depth on. -/
def Scan.Settles
    {α : Type}
    (procedure : Nat → Scan α)
    (scanner : Scanner)
    (value : α)
    (after : Scanner) :
    Prop :=
  FromSomeDepth fun fuel => Comes (procedure fuel) scanner value after

/-- A text without its quotes; its ends and its inside are looked at by position. -/
def unquoted
    (lexeme : String) :
    Except Misstep (Except LiteralFault Value) :=
  let text := lexeme.toList
  if text.length < 2 then
    .ok (.error (.notQuoted lexeme))
  else
    match text[0]?, text[text.length - 1]? with
    | some first, some last =>
        if first = '"' ∧ last = '"' then
          .ok (.ok (.string (String.ofList ((text.take (text.length - 1)).drop 1))))
        else
          .ok (.error (.notQuoted lexeme))
    | _, _ => .error .outsideSource

/-- The value that a token of the given kind and text carries. -/
def literalOf
    (kind : Kind)
    (lexeme : String) :
    Except Misstep (Except LiteralFault Value) :=
  match kind with
  | .string => unquoted lexeme
  | .number => .ok (Literal.ofNumeric lexeme)
  | _ => .ok (.ok .nil)

namespace Scan

/-- The outcome of a procedure that may not go deeper: there is none. -/
def exhausted
    {α : Type} :
    Scan α :=
  fun _ => none

/-- What a part of the machine gives, unless it takes a misstep. -/
def lift
    {α : Type}
    (result : Except Misstep α) :
    Scan α :=
  fun scanner =>
    match result with
    | .ok value => some (.ok (value, scanner))
    | .error misstep => some (.error misstep)

/-- Begin the next text where the last one ended. -/
def begin : Scan Unit :=
  modify fun scanner => { scanner with start := scanner.current }

/-- Move behind the next character. -/
def move : Scan Unit :=
  modify fun scanner => { scanner with current := scanner.current + 1 }

/-- Count the line that ends at a line feed. -/
def countLine
    (char : Char) :
    Scan Unit :=
  modify fun scanner =>
    { scanner with line := if char = '\n' then scanner.line + 1 else scanner.line }

/-- Note an error on the current line. -/
def addError
    (fault : LexicalFault) :
    Scan Unit :=
  modify fun scanner =>
    { scanner with errors := scanner.errors ++ [{ line := scanner.line, fault }] }

variable (source : List Char)

/-- Whether the source goes on. -/
def hasNext : Scan Bool := do
  let scanner ← get
  pure (scanner.current < source.length)

/-- The character at a position. -/
def charAt
    (position : Nat) :
    Scan Char :=
  lift
    (match source[position]? with
    | some char => .ok char
    | none => .error .beyondSource)

/-- Take the next character. -/
def advance : Scan Char := do
  let scanner ← get
  let char ← charAt source scanner.current
  move
  pure char

/-- Take the next character if it is the given one. -/
def accept
    (expected : Char) :
    Scan Bool := do
  if ← hasNext source then
    let scanner ← get
    let char ← charAt source scanner.current
    if char = expected then
      move
      pure true
    else
      pure false
  else
    pure false

/-- Look at the next character. -/
def peek : Scan Char := do
  if ← hasNext source then
    let scanner ← get
    charAt source scanner.current
  else
    pure '\x00'

/-- Look at the character behind the next one. -/
def peekNext : Scan Char := do
  let scanner ← get
  if source.length ≤ scanner.current + 1 then
    pure '\x00'
  else
    charAt source (scanner.current + 1)

/-- The text between the positions. -/
def lexeme : Scan String := do
  let scanner ← get
  if scanner.start ≤ scanner.current ∧ scanner.current ≤ source.length then
    pure (String.ofList ((source.take scanner.current).drop scanner.start))
  else
    lift (.error .outsideSource)

/-- Note a token with a value. -/
def add
    (kind : Kind)
    (text : String)
    (literal : Value) :
    Scan Unit :=
  modify fun scanner =>
    { scanner with
      tokens := scanner.tokens ++ [{ kind, lexeme := text, literal, line := scanner.line }] }

/-- Note the text between the positions as a token. -/
def addToken
    (kind : Kind) :
    Scan Unit := do
  let text ← lexeme source
  add kind text .nil

/-- Note the text between the positions as a token whose value follows from it. -/
def addLiteral
    (kind : Kind) :
    Scan Unit := do
  let text ← lexeme source
  match ← lift (literalOf kind text) with
  | .ok literal => add kind text literal
  | .error fault => addError (.badLiteral fault)

/-- The double mark when an equals sign follows, and the single one otherwise. -/
def addEither
    (single double : Mark) :
    Scan Unit := do
  if ← accept source '=' then
    addToken source (.mark double)
  else
    addToken source (.mark single)

/-- Whether the source goes on with something else than the given character. -/
def goesOnTo
    (stop : Char) :
    Scan Bool := do
  if (← peek source) = stop then
    pure false
  else
    hasNext source

/-- Pass the characters before the given one, or all that remain. -/
def skipUntil
    (stop : Char) :
    Nat → Scan Unit
  | 0 => exhausted
  | fuel + 1 => do
      if ← goesOnTo source stop then
        let next ← peek source
        countLine next
        let _ ← advance source
        skipUntil stop fuel
      else
        pure ()

/-- Pass the characters of a class. -/
def skipWhile
    (inClass : Char → Bool) :
    Nat → Scan Unit
  | 0 => exhausted
  | fuel + 1 => do
      if inClass (← peek source) then
        let _ ← advance source
        skipWhile inClass fuel
      else
        pure ()

/-- Whether a block comment ends here. -/
def closesComment : Scan Bool := do
  if (← peek source) = '*' then
    let second ← peekNext source
    pure (second = '/')
  else
    pure false

/-- The rest of a block comment. -/
def blockComment : Nat → Scan Unit
  | 0 => exhausted
  | fuel + 1 => do
      if ← closesComment source then
        let _ ← advance source
        let _ ← advance source
      else if ← hasNext source then
        let char ← advance source
        countLine char
        blockComment fuel
      else
        addError .unterminatedComment

/-- What a slash begins. -/
def slash
    (fuel : Nat) :
    Scan Unit := do
  if ← accept source '/' then
    skipUntil source '\n' fuel
  else if ← accept source '*' then
    blockComment source fuel
  else
    addToken source (.mark .slash)

/-- What a quote begins. -/
def string
    (fuel : Nat) :
    Scan Unit := do
  skipUntil source '"' fuel
  if ← hasNext source then
    let _ ← advance source
    addLiteral source .string
  else
    addError .unterminatedString

/-- Whether a point with a digit behind it follows. -/
def hasFraction : Scan Bool := do
  if (← peek source) = '.' then
    let digit ← peekNext source
    pure (isDigit digit)
  else
    pure false

/-- The point and the digits behind it, if there are any. -/
def fraction
    (fuel : Nat) :
    Scan Unit := do
  if ← hasFraction source then
    let _ ← advance source
    skipWhile source isDigit fuel
  else
    pure ()

/-- What a digit begins. -/
def number
    (fuel : Nat) :
    Scan Unit := do
  skipWhile source isDigit fuel
  fraction source fuel
  addLiteral source .number

/-- What a letter or an underscore begins. -/
def name
    (fuel : Nat) :
    Scan Unit := do
  skipWhile source isNamePart fuel
  let text ← lexeme source
  match Keyword.ofSpelling? text with
  | some word => addToken source (.keyword word)
  | none => addToken source .identifier

/-- What a character begins that has just been taken. -/
def dispatch
    (first : Char)
    (fuel : Nat) :
    Scan Unit :=
  match first with
  | ' ' | '\r' | '\t' => pure ()
  | '\n' => countLine '\n'
  | '(' => addToken source (.mark .leftParen)
  | ')' => addToken source (.mark .rightParen)
  | '{' => addToken source (.mark .leftBrace)
  | '}' => addToken source (.mark .rightBrace)
  | ',' => addToken source (.mark .comma)
  | '.' => addToken source (.mark .dot)
  | '-' => addToken source (.mark .minus)
  | '+' => addToken source (.mark .plus)
  | ';' => addToken source (.mark .semicolon)
  | '*' => addToken source (.mark .star)
  | '?' => addToken source (.mark .question)
  | ':' => addToken source (.mark .colon)
  | '!' => addEither source .bang .bangEqual
  | '=' => addEither source .equal .equalEqual
  | '<' => addEither source .less .lessEqual
  | '>' => addEither source .greater .greaterEqual
  | '/' => slash source fuel
  | '"' => string source fuel
  | _ =>
      if isDigit first then
        number source fuel
      else if isNameStart first then
        name source fuel
      else
        addError .unexpectedCharacter

/-- Read on to the end of the source. -/
def toEnd : Nat → Scan Unit
  | 0 => exhausted
  | fuel + 1 => do
      if ← hasNext source then
        begin
        let first ← advance source
        dispatch source first fuel
        toEnd fuel
      else
        pure ()

end Scan

/-- The tokens of a source, the end included, and its lexical errors. -/
def lex
    (source : List Char)
    (fuel : Nat) :
    ExceptT Misstep Option Lexing := do
  let start : Scanner := { start := 0, current := 0, line := 1, tokens := [], errors := [] }
  let (_, scanner) ← (Scan.toEnd source fuel).run start
  let ending : Token := { kind := .endOfInput, lexeme := "", literal := .nil, line := scanner.line }
  pure { tokens := scanner.tokens ++ [ending], errors := scanner.errors }

end BlockScript.Machine
