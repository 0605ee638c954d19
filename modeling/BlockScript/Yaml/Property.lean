import BlockScript.Text.Decoding
import BlockScript.Yaml.Tokenizer

namespace BlockScript.Yaml.Tokenizing

/-!
# Anchors, tags and directives

An anchor names a node so that an alias can repeat it, and a tag says of which
type a node is.  A tag is written in full between angle brackets, or as a handle
and a suffix.  Directives stand before a document: one gives its version, the
others the meaning of handles.
-/

/-- A character that may directly follow an anchor or an alias. -/
def endsAnchor (c : Char) : Bool :=
  isBlank c || ['?', ':', ',', ']', '}', '%', '@', '\x60'].contains c

/-- Read the name of an anchor or an alias, whose sign stands at the position. -/
def readAnchor : Tokenizing String := do
  let start := (← position).line
  skip 1
  let found ← readWhile isNamePart []
  if found.isEmpty || !endsAnchor (← current) then
    fail .noAnchorName start
  return String.ofList found.reverse

/-- Read the handle of a tag: an exclamation mark, a name and another mark, if there are any. -/
def readHandle
    (directive : Bool)
    (start : Nat) :
    Tokenizing (List Char) := do
  ensure 1
  if (← current) != '!' then
    fail .expectTagMark start
  skip 1
  let found ← readWhile isNamePart ['!']
  if (← current) == '!' then
    skip 1
    return ('!' :: found).reverse
  else
    if directive && found != ['!'] then
      fail .expectTagMark start
    return found.reverse

/-- A character of a tag's suffix, besides those of names. -/
def isSuffixPart (c : Char) : Bool :=
  isNamePart c ||
    [';', '/', '?', ':', '@', '&', '=', '+', '$', ',', '.', '!', '~', '*', '\'', '(', ')', '[',
      ']', '%'].contains c

/-- Read an octet that is written as a percent sign and two hexadecimal digits. -/
def readEscapedOctet
    (start : Nat) :
    Tokenizing UInt8 := do
  ensure 3
  match ← current, digit? 16 (← ahead 1), digit? 16 (← ahead 2) with
  | '%', some high, some low =>
      skip 3
      return UInt8.ofNat (16 * high + low)
  | _, _, _ => fail .expectEscapedOctet start

/-- Read the octets of a character behind the first one, which are found last first. -/
def readTrailing
    (start : Nat)
    (found : List UInt8) :
    Nat → Tokenizing (List UInt8)
  | 0 => return found
  | count + 1 => do
      let octet ← readEscapedOctet start
      if octet < 0x80 || 0xC0 ≤ octet then
        fail .escapedTrailing start
      readTrailing start (octet :: found) count

/-- Read a character whose octets are escaped. -/
def readEscapedCharacter
    (start : Nat) :
    Tokenizing (List Char) := do
  let first ← readEscapedOctet start
  match Decoding.width? first with
  | none => fail .escapedLeading start
  | some width =>
      let octets ← readTrailing start [first] (width - 1)
      return (Text.decode ⟨octets.reverse.toArray⟩).toList

/-- Read the suffix of a tag behind the characters found, which are held last first. -/
def readSuffix
    (optional : Bool)
    (start : Nat)
    (found : List Char) :
    Tokenizing String := do
  ensure 1
  let (found, any) ← loop (found, optional) fun (found, any) => do
    let c ← current
    if isSuffixPart c then
      let characters ← if c == '%' then readEscapedCharacter start else pure [← read]
      ensure 1
      return .again (characters.reverse ++ found, true)
    else
      return .done (found, any)
  if !any then
    fail .noTagSuffix start
  return String.ofList found.reverse

/-- Whether characters are a handle with both of its marks. -/
def isWholeHandle
    (handle : List Char) :
    Bool :=
  1 < handle.length && handle.getLast? == some '!'

/-- Read the handle and the suffix of a tag, whose sign stands at the position. -/
def readTag : Tokenizing (String × String) := do
  let start := (← position).line
  ensure 2
  let tag ←
    if (← ahead 1) == '<' then
      skip 2
      let suffix ← readSuffix false start []
      if (← current) != '>' then
        fail .openTag start
      skip 1
      pure ("", suffix)
    else
      let handle ← readHandle false start
      if isWholeHandle handle then
        let suffix ← readSuffix false start []
        pure (String.ofList handle, suffix)
      else
        let suffix ← readSuffix true start handle.tail.reverse
        pure (if suffix = "" then ("", "!") else ("!", suffix))
  ensure 1
  if !isBlank (← current) then
    fail .expectBlank start
  return tag

/-- The greatest number of digits of a version number. -/
def versionDigits : Nat := 2

/-- Read a number of a version. -/
def readVersionNumber
    (start : Nat) :
    Tokenizing Nat := do
  ensure 1
  let (value, length) ← loop (0, 0) fun (value, length) => do
    match digit? 10 (← current) with
    | none => return .done (value, length)
    | some digit =>
        if length = versionDigits then
          fail .longVersion start
        skip 1
        ensure 1
        return .again (10 * value + digit, length + 1)
  if length = 0 then
    fail .noVersion start
  return value

/-- Read the version that a directive gives. -/
def readVersion
    (start : Nat) :
    Tokenizing TokenKind := do
  skipWhile isSpace
  let major ← readVersionNumber start
  if (← current) != '.' then
    fail .noVersionPoint start
  skip 1
  let minor ← readVersionNumber start
  return .version major minor

/-- Read the handle that a directive gives a meaning, and its meaning. -/
def readTagHandle
    (start : Nat) :
    Tokenizing TokenKind := do
  skipWhile isSpace
  let handle ← readHandle true start
  ensure 1
  if !isSpace (← current) then
    fail .expectSpace start
  skipWhile isSpace
  let meaning ← readSuffix false start []
  ensure 1
  if !isBlank (← current) then
    fail .expectBlank start
  return .tagHandle (String.ofList handle) meaning

/-- Read a directive, whose percent sign stands at the position, and the rest of its line. -/
def readDirective : Tokenizing TokenKind := do
  let start := (← position).line
  skip 1
  let name ← readWhile isNamePart []
  if name.isEmpty then
    fail .noDirectiveName start
  if !isBlank (← current) then
    fail .directiveNotAlphabetic start
  let kind ←
    match String.ofList name.reverse with
    | "YAML" => readVersion start
    | "TAG" => readTagHandle start
    | _ => fail .unknownDirective start
  skipWhile isSpace
  if (← current) == '#' then
    skipWhile fun c => !isLineEnd c
  if !isLineEnd (← current) then
    fail .expectLineBreak start
  if isBreak (← current) then
    ensure 2
    skipBreak
  return kind

end BlockScript.Yaml.Tokenizing
