import Std.Data.HashMap
import BlockScript.Decimal.Basic
import BlockScript.Yaml.Input
import BlockScript.Yaml.Token

namespace BlockScript.Yaml

/-!
# The state of a tokenizer

A tokenizer stands before the rest of a document.  It knows its position, the
indentation of the block collections around it and the number of flow
collections around it, and it holds the tokens that have been found and not yet
taken.

A token may turn out to be a key only when the colon behind it is found.  Each
flow level has one such candidate at most, which must be followed by its colon on
the same line and within a bounded distance.
-/

/-- A token that a colon may follow, which would make it a key. -/
structure KeyCandidate where
  /-- Whether a colon may still follow. -/
  isOpen : Bool
  /-- Whether the token stands where nothing but a key may stand. -/
  required : Bool
  /-- The number of the token. -/
  number : Nat
  position : Position
  deriving Repr, DecidableEq

/-- A comment that belongs to what follows it. -/
structure Remark where
  /-- The index of its first character. -/
  index : Nat
  text : List Char
  deriving Repr, DecidableEq

/-- A tokenizer of a document. -/
structure Tokenizer where
  input : Input
  position : Position := { index := 0, line := 1, column := 0 }
  /-- The number of line breaks since the last character that is not blank. -/
  breaks : Nat := 0
  /-- Whether the token for the beginning of the text has been found. -/
  started : Bool := false
  /-- The number of flow collections around the position. -/
  depth : Nat := 0
  /-- The tokens that have been found and not taken. -/
  queue : List Token := []
  /-- The number of tokens that have been taken. -/
  taken : Nat := 0
  /-- Whether enough tokens have been found to take the next one. -/
  ready : Bool := false
  /-- The least column of what is nested in the innermost block collection. -/
  margin : Nat := 0
  /-- The margins of the collections around that one, the innermost first. -/
  margins : List Nat := []
  /-- Whether a key may begin at the position. -/
  keyAllowed : Bool := false
  /-- The candidate of each flow level, the innermost last. -/
  candidates : Array KeyCandidate := #[]
  /-- The flow levels of tokens that may turn out to be keys, by the numbers of the tokens. -/
  levels : Std.HashMap Nat Nat := {}
  /-- The comments that belong to tokens which have not been looked at. -/
  remarks : List Remark := []
  /-- A fault that was met while looking ahead. -/
  deferred? : Option Malformation := none
  /-- A number that no loop over the characters exceeds. -/
  budget : Nat

/--
An action on a tokenizer, which may find that the text is no document.  The
tokenizer then stands where the fault was found.
-/
abbrev Tokenizing (α : Type) := ExceptT Malformation (StateM Tokenizer) α

/-- A space or a tab. -/
def isSpace (c : Char) : Bool :=
  c == ' ' || c == '\t'

/-- A character that ends a line. -/
def isBreak (c : Char) : Bool :=
  c == '\n' || c == '\r' || c == '\u0085' || c == '\u2028' || c == '\u2029'

/-- A line break or the end of the document. -/
def isLineEnd (c : Char) : Bool :=
  isBreak c || c == endMark

/-- A space, a tab, a line break or the end of the document. -/
def isBlank (c : Char) : Bool :=
  isSpace c || isLineEnd c

/-- A character of a name. -/
def isNamePart (c : Char) : Bool :=
  isDigit c || ('a' ≤ c && c ≤ 'z') || ('A' ≤ c && c ≤ 'Z') || c == '_' || c == '-'

namespace Tokenizer

/-- A tokenizer before the first character of a document. -/
def ofOctets
    (octets : ByteArray) :
    Tokenizer where
  input := .ofOctets octets
  budget := octets.size + 16

/-- A tokenizer behind a number of characters of the same line. -/
def passed
    (count : Nat)
    (tokenizer : Tokenizer) :
    Tokenizer :=
  let position := tokenizer.position
  { tokenizer with
    input := tokenizer.input.drop count
    position :=
      { position with index := position.index + count, column := position.column + count } }

/-- A tokenizer behind a line break of the given number of characters. -/
def passedBreak
    (count : Nat)
    (tokenizer : Tokenizer) :
    Tokenizer :=
  let position := tokenizer.position
  { tokenizer with
    input := tokenizer.input.drop count
    position := { index := position.index + count, line := position.line + 1, column := 0 }
    breaks := tokenizer.breaks + 1 }

/-- The number that the next token has. -/
def nextNumber
    (tokenizer : Tokenizer) :
    Nat :=
  tokenizer.taken + tokenizer.queue.length

end Tokenizer

/-- Whether a loop goes on. -/
inductive Turn (σ : Type) where
  | again (state : σ)
  | done (state : σ)

namespace Tokenizing

/-- Repeat a step until it is done, or as often as the budget allows. -/
def loopFrom
    {σ : Type}
    (step : σ → Tokenizing (Turn σ)) :
    Nat → σ → Tokenizing σ
  | 0, state => return state
  | budget + 1, state => do
      match ← step state with
      | .again state => loopFrom step budget state
      | .done state => return state

/-- Repeat a step until it is done. -/
def loop
    {σ : Type}
    (initial : σ)
    (step : σ → Tokenizing (Turn σ)) :
    Tokenizing σ := do
  loopFrom step (← get).budget initial

/-- Have a number of characters at hand. -/
def ensure
    (wanted : Nat) :
    Tokenizing Unit := do
  let tokenizer ← get
  let (input, fault?) := tokenizer.input.load wanted
  set { tokenizer with input }
  match fault? with
  | some fault => throw (.anywhere fault)
  | none => return

/-- Put a fault off until the part of the document at hand has been composed. -/
def defer
    (malformation : Malformation) :
    Tokenizing Unit :=
  modify fun tokenizer => { tokenizer with deferred? := some malformation }

/-- Try to have a number of characters at hand; a fault is put off. -/
def tryEnsure
    (wanted : Nat) :
    Tokenizing Bool := do
  let tokenizer ← get
  let (input, fault?) := tokenizer.input.load wanted
  set { tokenizer with input }
  match fault? with
  | some fault =>
      defer (.anywhere fault)
      return false
  | none => return true

/-- Give a fault that was put off. -/
def settle : Tokenizing Unit := do
  match (← get).deferred? with
  | some malformation => throw malformation
  | none => return

/-- The position of the tokenizer. -/
def position : Tokenizing Position := do
  return (← get).position

/-- Give a fault of a construct that begins on the given line. -/
def fail
    {α : Type}
    (fault : Fault)
    (begun : Nat) :
    Tokenizing α := do
  throw { fault, begun, stuck := (← position).line }

/-- Give a fault of the place. -/
def failHere
    {α : Type}
    (fault : Fault) :
    Tokenizing α := do
  fail fault (← position).line

/-- The character with this many characters before it. -/
def ahead
    (count : Nat) :
    Tokenizing Char := do
  return (← get).input.character count

/-- The character at the position. -/
def current : Tokenizing Char :=
  ahead 0

/-- Read a character that is no line break. -/
def read : Tokenizing Char := do
  let c ← current
  modify fun tokenizer =>
    let after := tokenizer.passed 1
    if isSpace c then after else { after with breaks := 0 }
  return c

/-- Pass over a number of characters that are no line breaks. -/
def skip : Nat → Tokenizing Unit
  | 0 => return
  | count + 1 => do
      let _ ← read
      skip count

/-- Read a line break, if there is one, as the characters that it stands for. -/
def readBreak : Tokenizing (List Char) := do
  let c ← current
  if c == '\r' && (← ahead 1) == '\n' then
    modify (·.passedBreak 2)
    return ['\n']
  else if isBreak c then
    modify (·.passedBreak 1)
    return if c == '\u2028' || c == '\u2029' then [c] else ['\n']
  else
    return []

/-- Pass over a line break, if there is one. -/
def skipBreak : Tokenizing Unit := do
  let _ ← readBreak

/-- Pass over the characters of a kind, with the next character at hand. -/
def skipWhile
    (isPassed : Char → Bool) :
    Tokenizing Unit := do
  ensure 1
  loop () fun _ => do
    if isPassed (← current) then
      skip 1
      ensure 1
      return .again ()
    else
      return .done ()

/-- Read the characters of a kind behind those found, which are held last first. -/
def readWhile
    (isPassed : Char → Bool)
    (found : List Char) :
    Tokenizing (List Char) := do
  ensure 1
  loop found fun found => do
    if isPassed (← current) then
      let c ← read
      ensure 1
      return .again (c :: found)
    else
      return .done found

/-- Whether a mark stands at the position three times in the first column, with a blank behind. -/
def atTripled
    (mark : Char) :
    Tokenizing Bool := do
  return (← position).column == 0 && (← ahead 0) == mark && (← ahead 1) == mark &&
    (← ahead 2) == mark && isBlank (← ahead 3)

/-- Whether the mark that begins or ends a document stands at the position. -/
def atDocumentMark : Tokenizing Bool := do
  return (← atTripled '-') || (← atTripled '.')

/-- Add a token at the end of the queue. -/
def push
    (kind : TokenKind)
    (position : Position) :
    Tokenizing Unit :=
  modify fun tokenizer => { tokenizer with queue := tokenizer.queue ++ [{ kind, position }] }

/-- Add a token before the token with the given number, or at the end if that one is taken. -/
def insertBefore
    (number : Nat)
    (kind : TokenKind)
    (position : Position) :
    Tokenizing Unit :=
  modify fun tokenizer =>
    let token : Token := { kind, position }
    let queue := tokenizer.queue
    if tokenizer.taken ≤ number then
      let place := number - tokenizer.taken
      { tokenizer with queue := queue.take place ++ token :: queue.drop place }
    else
      { tokenizer with queue := queue ++ [token] }

/-- Say whether a key may begin at the position. -/
def allowKey
    (allowed : Bool) :
    Tokenizing Unit :=
  modify fun tokenizer => { tokenizer with keyAllowed := allowed }

end Tokenizing

end BlockScript.Yaml
