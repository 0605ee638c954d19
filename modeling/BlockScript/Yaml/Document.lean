import BlockScript.Yaml.Composition

namespace BlockScript.Yaml

/-!
# Documents

Block collections are nested by indentation, which the tokens show, and flow
collections by brackets.  A sequence may stand in the column of the key that holds
it.  Only the first document of a text is composed; what follows it is not looked
at, beyond the tokens that have been found by then.
-/

namespace Composing

open Tokenizing (take settle)

/-- Whether a token of a block mapping follows, so that a key or a value is missing. -/
def endsBlockPart : TokenKind → Bool
  | .key | .value | .blockEnd => true
  | _ => false

/-- Whether a token follows that ends a part of a flow collection with the given closing token. -/
def endsFlowPart
    (closing kind : TokenKind) :
    Bool :=
  kind = .flowEntry || kind = closing

mutual

/--
Compose a node.  Block collections are expected only outside flow collections,
and a sequence in the column of its key only as a part of a block mapping.
-/
def node
    (budget : Nat)
    (block besideKey : Bool) :
    Composing Node :=
  match budget with
  | 0 => throw (.anywhere .expectNode)
  | budget + 1 => do
      let first ← peek
      match first.kind with
      | .alias name =>
          take
          finishNode
          aliasNode first.line name
      | _ =>
          let properties ← readProperties
          let token ← peek
          let line := properties.line
          match token.kind, block, besideKey with
          | .blockEntry, _, true =>
              settle
              let anchor? ← declare properties
              let items ← sequenceBesideKey budget []
              keep anchor? (.sequence line (properties.tag .seq) items)
          | .scalar style text, _, _ =>
              take
              finishNode
              let anchor? ← declare properties
              keep anchor? (.scalar line (properties.tag (.ofScalar style text)) text)
          | .flowSequenceStart, _, _ =>
              finishNode
              let anchor? ← declare properties
              take
              let items ← flowSequence budget token.line true []
              keep anchor? (.sequence line (properties.tag .seq) items)
          | .flowMappingStart, _, _ =>
              finishNode
              let anchor? ← declare properties
              take
              let entries ← flowMapping budget token.line true []
              keep anchor? (.mapping line (properties.tag .map) entries)
          | .blockSequenceStart, true, _ =>
              settle
              let anchor? ← declare properties
              take
              let items ← blockSequence budget token.line []
              keep anchor? (.sequence line (properties.tag .seq) items)
          | .blockMappingStart, true, _ =>
              settle
              let anchor? ← declare properties
              take
              let entries ← blockMapping budget token.line []
              keep anchor? (.mapping line (properties.tag .map) entries)
          | _, _, _ =>
              if properties.isEmpty then
                throw { fault := .expectNode, begun := line, stuck := token.line }
              settle
              let anchor? ← declare properties
              keep anchor? (.scalar line (properties.tag .null) "")

/-- Compose the items of a block sequence behind those composed, which are held last first. -/
def blockSequence
    (budget line : Nat)
    (items : List Node) :
    Composing (List Node) :=
  match budget with
  | 0 => throw (.anywhere .expectNode)
  | budget + 1 => do
      let token ← peek
      match token.kind with
      | .blockEntry =>
          let length ← remarkLength
          take
          passDash length
          let next ← peek
          let item ←
            if next.kind = .blockEntry || next.kind = .blockEnd then
              missing token.line
            else
              node budget true false
          blockSequence budget line (item :: items)
      | .blockEnd =>
          closeSequence
          return items.reverse
      | _ => throw { fault := .expectDash, begun := line, stuck := token.line }

/-- Compose the items of a sequence in the column of its key, which ends at any other token. -/
def sequenceBesideKey
    (budget : Nat)
    (items : List Node) :
    Composing (List Node) :=
  match budget with
  | 0 => throw (.anywhere .expectNode)
  | budget + 1 => do
      let token ← peek
      match token.kind with
      | .blockEntry =>
          let length ← remarkLength
          take
          passDash length
          let next ← peek
          let item ←
            if next.kind = .blockEntry || endsBlockPart next.kind then
              missing token.line
            else
              node budget true false
          sequenceBesideKey budget (item :: items)
      | _ =>
          settle
          return items.reverse

/-- Compose the entries of a block mapping behind those composed, which are held last first. -/
def blockMapping
    (budget line : Nat)
    (entries : List (Node × Node)) :
    Composing (List (Node × Node)) :=
  match budget with
  | 0 => throw (.anywhere .expectNode)
  | budget + 1 => do
      let token ← peek
      match token.kind with
      | .key =>
          take
          let next ← peek
          let key ←
            if endsBlockPart next.kind then missing token.line else node budget true true
          let value ← blockValue budget
          blockMapping budget line ((key, value) :: entries)
      | .blockEnd =>
          close
          return entries.reverse
      | _ => throw { fault := .expectKey, begun := line, stuck := token.line }

/-- Compose the value of an entry of a block mapping. -/
def blockValue
    (budget : Nat) :
    Composing Node :=
  match budget with
  | 0 => throw (.anywhere .expectNode)
  | budget + 1 => do
      let token ← peek
      if token.kind = .value then
        take
        let next ← peek
        if endsBlockPart next.kind then missing token.line else node budget true true
      else
        missing token.line

/--
Compose the items of a flow sequence behind its bracket, if it is the first item,
or behind an item.
-/
def flowSequence
    (budget line : Nat)
    (first : Bool)
    (items : List Node) :
    Composing (List Node) :=
  match budget with
  | 0 => throw (.anywhere .expectNode)
  | budget + 1 => do
      let token ← peek
      if token.kind ≠ .flowSequenceEnd && !first then
        if token.kind = .flowEntry then
          take
        else
          throw { fault := .expectCommaOrBracket, begun := line, stuck := token.line }
      let token ← peek
      match token.kind with
      | .flowSequenceEnd =>
          close
          return items.reverse
      | .key =>
          take
          settle
          let entry ← flowPair budget
          let pair ← keep none (.mapping token.line .map [entry])
          flowSequence budget line false (pair :: items)
      | _ =>
          let item ← node budget false false
          flowSequence budget line false (item :: items)

/--
Compose the entry of a mapping that is written without brackets in a flow
sequence.  A token behind a missing key is passed over.
-/
def flowPair
    (budget : Nat) :
    Composing (Node × Node) :=
  match budget with
  | 0 => throw (.anywhere .expectNode)
  | budget + 1 => do
      let token ← peek
      let key ←
        if token.kind = .value || endsFlowPart .flowSequenceEnd token.kind then
          take
          missing token.line
        else
          node budget false false
      let value ← flowValue budget .flowSequenceEnd
      let _ ← peek
      settle
      return (key, value)

/-- Compose the value of an entry of a flow collection with the given closing token. -/
def flowValue
    (budget : Nat)
    (closing : TokenKind) :
    Composing Node :=
  match budget with
  | 0 => throw (.anywhere .expectNode)
  | budget + 1 => do
      let token ← peek
      if token.kind = .value then
        take
        let next ← peek
        if endsFlowPart closing next.kind then missing token.line else node budget false false
      else
        missing token.line

/--
Compose the entries of a flow mapping behind its bracket, if it is the first
entry, or behind an entry.
-/
def flowMapping
    (budget line : Nat)
    (first : Bool)
    (entries : List (Node × Node)) :
    Composing (List (Node × Node)) :=
  match budget with
  | 0 => throw (.anywhere .expectNode)
  | budget + 1 => do
      let token ← peek
      if token.kind ≠ .flowMappingEnd && !first then
        if token.kind = .flowEntry then
          take
        else
          throw { fault := .expectCommaOrBrace, begun := line, stuck := token.line }
      let token ← peek
      match token.kind with
      | .flowMappingEnd =>
          close
          return entries.reverse
      | .key =>
          take
          let next ← peek
          let key ←
            if next.kind = .value || endsFlowPart .flowMappingEnd next.kind then
              missing next.line
            else
              node budget false false
          let value ← flowValue budget .flowMappingEnd
          flowMapping budget line false ((key, value) :: entries)
      | _ =>
          let key ← node budget false false
          let value ← missing (← peek).line
          flowMapping budget line false ((key, value) :: entries)

end

/-- The handles that need no directive. -/
def usualHandles : List (String × String) :=
  [("!", "!"), ("!!", Tag.usual)]

/-- Read the directives of a document, given whether a version has been read. -/
def readDirectives
    (versioned : Bool) :
    Nat → Composing Unit
  | 0 => return
  | budget + 1 => do
      let token ← peek
      match token.kind with
      | .version major minor =>
          if versioned then
            throw (.onLine .repeatedVersion token.line)
          if major ≠ 1 || minor ≠ 1 then
            throw (.onLine .otherVersion token.line)
          take
          readDirectives true budget
      | .tagHandle handle meaning =>
          if ((← get).handles.lookup handle).isSome then
            throw (.onLine .repeatedHandle token.line)
          modify fun composition =>
            { composition with handles := composition.handles ++ [(handle, meaning)] }
          take
          readDirectives versioned budget
      | _ => return

/-- Whether a token ends a document that has not begun. -/
def endsDocument : TokenKind → Bool
  | .version .. | .tagHandle .. | .documentStart | .documentEnd | .textEnd => true
  | _ => false

/-- A text up to a blank line. -/
def upToBlankLine : List Char → List Char
  | '\n' :: '\n' :: _ => []
  | c :: rest => c :: upToBlankLine rest
  | [] => []

/-- The comments behind the last blank line. -/
def lastComments
    (text : List Char) :
    List Char :=
  match text.reverse with
  | '\n' :: _ => []
  | reversed => (upToBlankLine reversed).reverse

/-- Give the comments of a document to the document, but for the last ones before its node. -/
def finishHeader : Composing Unit := do
  modify fun composition =>
    { composition with remark := lastComments composition.remark }
  settle

/-- Compose the node of a document whose first token is given. -/
def documentNode
    (budget : Nat)
    (token : Token) :
    Composing Node := do
  if token.kind ≠ .documentEnd && endsDocument token.kind then
    readDirectives false budget
    modify fun composition =>
      { composition with handles := composition.handles ++ usualHandles }
    let start ← peek
    if start.kind ≠ .documentStart then
      throw (.onLine .expectDocument start.line)
    take
    settle
    let next ← peek
    if endsDocument next.kind then missing next.line else node budget true false
  else
    modify fun composition => { composition with handles := usualHandles }
    finishHeader
    node budget true false

/-- Compose the first document of a text, if there is one. -/
def document
    (budget : Nat) :
    Composing (Option Node) := do
  let _ ← peek
  take
  settle
  let token ← peek
  if token.kind = .textEnd then
    settle
    return none
  else
    let root ← documentNode budget token
    if (← peek).kind = .documentEnd then
      take
    settle
    return some root

end Composing

namespace Document

/-- The first document of a text, if there is one. -/
def ofOctets?
    (octets : ByteArray) :
    Except Malformation (Option Document) := do
  let budget := 16 * octets.size + 64
  let (root?, composition) ←
    (((Composing.document budget).run {}).run.run (Tokenizer.ofOctets octets)).1
  return root?.map fun root =>
    { root, anchored := composition.anchored, size := composition.size }

end Document

end BlockScript.Yaml
