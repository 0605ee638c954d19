import BlockScript.Yaml.Property
import BlockScript.Yaml.Scalar

namespace BlockScript.Yaml.Tokenizing

/-!
# Finding tokens

Tokens are found one after another and taken from the front of a queue.  A token
is taken only when two more are in the queue behind it and it can no longer turn
out to be a key.  A document whose first tokens are in order may therefore be
refused for what stands further on.
-/

/-- The greatest depth of nested collections. -/
def depthLimit : Nat := 10000

/-- The greatest number of characters between the beginning of a key and its colon. -/
def keyDistance : Nat := 1024

/-- The candidate of the innermost flow level. -/
def candidate : Tokenizing KeyCandidate := do
  let origin : KeyCandidate :=
    { isOpen := false, required := false, number := 0, position := ← position }
  return (← get).candidates.back?.getD origin

/-- Replace the candidate of a flow level. -/
def setCandidate
    (level : Nat)
    (candidate : KeyCandidate) :
    Tokenizing Unit :=
  modify fun tokenizer =>
    { tokenizer with candidates := tokenizer.candidates.setIfInBounds level candidate }

/-- The number of the innermost flow level. -/
def innermost : Tokenizing Nat := do
  return (← get).candidates.size - 1

/-- Forget that the token with the given number may turn out to be a key. -/
def forget
    (number : Nat) :
    Tokenizing Unit :=
  modify fun tokenizer => { tokenizer with levels := tokenizer.levels.erase number }

/--
Whether the candidate of a level may still become a key.  It may not on a later
line or too far away, which is a fault if it has to be one.
-/
def checkCandidate
    (level : Nat)
    (candidate : KeyCandidate) :
    Tokenizing Bool := do
  let here ← position
  if !candidate.isOpen then
    return false
  else if candidate.position.line < here.line ||
      candidate.position.index + keyDistance < here.index then
    if candidate.required then
      fail .expectColon candidate.position.line
    setCandidate level { candidate with isOpen := false }
    return false
  else
    return true

/-- Give up the innermost candidate, which is a fault if it has to be a key. -/
def dropCandidate : Tokenizing Unit := do
  let candidate ← candidate
  if candidate.isOpen then
    if candidate.required then
      fail .expectColon candidate.position.line
    setCandidate (← innermost) { candidate with isOpen := false }
    forget candidate.number

/-- Make the token that begins at the position a candidate, if a key may begin there. -/
def saveCandidate : Tokenizing Unit := do
  let tokenizer ← get
  if tokenizer.keyAllowed then
    let position := tokenizer.position
    let required := tokenizer.depth == 0 && tokenizer.margin == position.column + 1
    let number := tokenizer.nextNumber
    dropCandidate
    let level ← innermost
    setCandidate level { isOpen := true, required, number, position }
    modify fun tokenizer => { tokenizer with levels := tokenizer.levels.insert number level }

/-- Enter a flow collection. -/
def enterFlow : Tokenizing Unit := do
  modify fun tokenizer =>
    { tokenizer with
      depth := tokenizer.depth + 1
      candidates :=
        tokenizer.candidates.push
          { isOpen := false
            required := false
            number := tokenizer.nextNumber
            position := tokenizer.position } }
  if depthLimit < (← get).depth then
    failHere .tooDeep

/-- Leave a flow collection, if there is one. -/
def leaveFlow : Tokenizing Unit := do
  if 0 < (← get).depth then
    forget (← candidate).number
    modify fun tokenizer =>
      { tokenizer with
        depth := tokenizer.depth - 1
        candidates := tokenizer.candidates.pop }

/--
Begin a block collection at a position, unless one has begun in its column.  Its token
stands before the token with the given number, or else at the end.
-/
def indent
    (position : Position)
    (number? : Option Nat)
    (kind : TokenKind) :
    Tokenizing Unit := do
  let tokenizer ← get
  if tokenizer.depth == 0 && tokenizer.margin ≤ position.column then
    set { tokenizer with
      margin := position.column + 1
      margins := tokenizer.margin :: tokenizer.margins }
    if depthLimit < tokenizer.margins.length + 1 then
      fail .tooDeep (← candidate).position.line
    match number? with
    | some number => insertBefore number kind position
    | none => push kind position

/-- End the block collections around the innermost one, whose margins exceed the given one. -/
def outdentFrom
    (margin : Nat)
    (position : Position) :
    List Nat → Tokenizing Unit
  | [] => return
  | outer :: rest => do
      if margin < (← get).margin then
        push .blockEnd position
        modify fun tokenizer => { tokenizer with margin := outer, margins := rest }
        outdentFrom margin position rest

/-- End the block collections whose margins exceed the given one. -/
def outdent
    (margin : Nat)
    (position : Position) :
    Tokenizing Unit := do
  let tokenizer ← get
  if tokenizer.depth == 0 then
    outdentFrom margin position tokenizer.margins

/-- End all block collections, and allow no key. -/
def endBlocks : Tokenizing Unit := do
  outdent 0 (← position)
  dropCandidate
  allowKey false

/-- Find the end of the text, which stands on a line of its own. -/
def findTextEnd : Tokenizing Unit := do
  modify fun tokenizer =>
    let position := tokenizer.position
    if position.column == 0 then
      tokenizer
    else
      { tokenizer with position := { position with line := position.line + 1, column := 0 } }
  endBlocks
  push .textEnd (← position)

/-- Find a mark of the given number of characters. -/
def findMark
    (length : Nat)
    (kind : TokenKind) :
    Tokenizing Unit := do
  let start ← position
  skip length
  push kind start

/-- Find the dash of a sequence. -/
def findBlockEntry : Tokenizing Unit := do
  let tokenizer ← get
  if tokenizer.depth == 0 then
    if !tokenizer.keyAllowed then
      failHere .itemNotAllowed
    indent tokenizer.position none .blockSequenceStart
  dropCandidate
  allowKey true
  findMark 1 .blockEntry

/-- Find the question mark of a key. -/
def findKey : Tokenizing Unit := do
  let tokenizer ← get
  if tokenizer.depth == 0 then
    if !tokenizer.keyAllowed then
      failHere .keyNotAllowed
    indent tokenizer.position none .blockMappingStart
  dropCandidate
  allowKey (tokenizer.depth == 0)
  findMark 1 .key

/-- Find the colon of a value, which makes the candidate before it a key. -/
def findValue : Tokenizing Unit := do
  let key ← candidate
  let level ← innermost
  if ← checkCandidate level key then
    insertBefore key.number .key key.position
    indent key.position (some key.number) .blockMappingStart
    setCandidate level { key with isOpen := false }
    forget key.number
    allowKey false
  else
    let tokenizer ← get
    if tokenizer.depth == 0 then
      if !tokenizer.keyAllowed then
        failHere .valueNotAllowed
      indent tokenizer.position none .blockMappingStart
    allowKey (tokenizer.depth == 0)
  findMark 1 .value

/-- Find the opening bracket of a flow collection. -/
def findOpening
    (kind : TokenKind) :
    Tokenizing Unit := do
  saveCandidate
  enterFlow
  allowKey true
  findMark 1 kind

/-- Find the closing bracket of a flow collection. -/
def findClosing
    (kind : TokenKind) :
    Tokenizing Unit := do
  dropCandidate
  leaveFlow
  allowKey false
  findMark 1 kind

/-- Find the comma of a flow collection. -/
def findFlowEntry : Tokenizing Unit := do
  dropCandidate
  allowKey true
  findMark 1 .flowEntry

/-- Find a part of a node that may be a key. -/
def findPart
    (read : Tokenizing TokenKind) :
    Tokenizing Unit := do
  saveCandidate
  allowKey false
  let start ← position
  push (← read) start

/-- Find a block scalar, behind which a key may begin. -/
def findBlockScalar
    (folded : Bool) :
    Tokenizing Unit := do
  dropCandidate
  allowKey true
  let start ← position
  push (.scalar .quoted (← readBlock folded)) start

/-- A character that has another meaning where a plain scalar might begin. -/
def isReserved (c : Char) : Bool :=
  ['-', '?', ':', ',', '[', ']', '{', '}', '#', '&', '*', '!', '|', '>', '\'', '"', '%', '@',
    '\x60'].contains c

/-- Whether a plain scalar may begin with this character, inside or outside a flow collection. -/
def startsPlain
    (flow : Bool)
    (c next : Char) :
    Bool :=
  !(isBlank c || isReserved c) || (c == '-' && !isSpace next) ||
    (!flow && (c == '?' || c == ':') && !isBlank next)

/-- Find a token that is neither a directive nor a mark of a document. -/
def findInDocument : Tokenizing Unit := do
  let flow := 0 < (← get).depth
  let c ← current
  let next ← ahead 1
  if c == '[' then
    findOpening .flowSequenceStart
  else if c == '{' then
    findOpening .flowMappingStart
  else if c == ']' then
    findClosing .flowSequenceEnd
  else if c == '}' then
    findClosing .flowMappingEnd
  else if c == ',' then
    findFlowEntry
  else if c == '-' && isBlank next then
    findBlockEntry
  else if c == '?' && (flow || isBlank next) then
    findKey
  else if c == ':' && (flow || isBlank next) then
    findValue
  else if c == '*' then
    findPart do return .alias (← readAnchor)
  else if c == '&' then
    findPart do return .anchor (← readAnchor)
  else if c == '!' then
    findPart do
      let (handle, suffix) ← readTag
      return .tag handle suffix
  else if (c == '|' || c == '>') && !flow then
    findBlockScalar (c == '>')
  else if c == '\'' || c == '"' then
    findPart do return .scalar .quoted (← readQuoted c)
  else if startsPlain flow c next then
    findPart do return .scalar .plain (← readPlain)
  else
    failHere .noToken
  if !(c == '-' && isBlank next) then
    skipLineComment

/-- Find the beginning of the text. -/
def findTextStart : Tokenizing Unit := do
  let position ← position
  modify fun tokenizer =>
    { tokenizer with
      started := true
      keyAllowed := true
      candidates := #[{ isOpen := false, required := false, number := 0, position }] }
  push .textStart position

/-- Find the next token and the tokens that it implies. -/
def findToken : Tokenizing Unit := do
  ensure 1
  if (← get).started then
    let start ← position
    skipToToken
    outdent ((← position).column + 1) start
    ensure 4
    let c ← current
    if c == endMark then
      findTextEnd
    else if (← position).column == 0 && c == '%' then
      endBlocks
      let start ← position
      push (← readDirective) start
    else if ← atTripled '-' then
      endBlocks
      findMark 3 .documentStart
    else if ← atTripled '.' then
      endBlocks
      findMark 3 .documentEnd
    else
      findInDocument
  else
    findTextStart

/-- Whether the first token of the queue may still turn out to be a key. -/
def mayBeKey : Tokenizing Bool := do
  let tokenizer ← get
  match tokenizer.levels[tokenizer.taken]? with
  | none => return false
  | some level =>
      match tokenizer.candidates[level]? with
      | none => return false
      | some candidate => checkCandidate level candidate

/-- Find tokens until the first one of the queue can be taken. -/
def findEnough : Tokenizing Unit := do
  loop () fun _ => do
    match (← get).queue with
    | _ :: _ :: _ :: _ =>
        if ← mayBeKey then
          findToken
          return .again ()
        else
          return .done ()
    | _ =>
        findToken
        return .again ()
  modify fun tokenizer => { tokenizer with ready := true }

/-- The next token. -/
def peek : Tokenizing Token := do
  if !(← get).ready then
    findEnough
  let tokenizer ← get
  return tokenizer.queue.headD { kind := .textEnd, position := tokenizer.position }

/-- Take the next token. -/
def take : Tokenizing Unit :=
  modify fun tokenizer =>
    { tokenizer with
      queue := tokenizer.queue.tail
      taken := tokenizer.taken + 1
      ready := false }

end BlockScript.Yaml.Tokenizing
