import BlockScript.Yaml.Fault

namespace BlockScript.Yaml

/-!
# The characters of a document

A document comes as octets in UTF-8, or in UTF-16 behind a byte order mark.  Its
characters are decoded in portions, the next one as soon as more characters are
asked for than are at hand.  Octets that are no characters are therefore a fault
only when their portion is reached, and not if the document ends before.
-/

/-- How characters are written as octets. -/
inductive Encoding where
  | utf8
  | utf16 (bigEndian : Bool)
  deriving Repr, DecidableEq

/-- What octets begin with. -/
inductive Decoding where
  | character (c : Char) (width : Nat)
  /-- The octets end before the character does. -/
  | incomplete (fault : OctetFault)
  | malformed (fault : Fault)
  deriving Repr

namespace Decoding

/-- Whether a document may contain the character with this code. -/
def isAllowed
    (code : Nat) :
    Bool :=
  code == 0x09 || code == 0x0A || code == 0x0D || (0x20 ≤ code && code ≤ 0x7E) || code == 0x85 ||
    (0xA0 ≤ code && code ≤ 0xD7FF) || (0xE000 ≤ code && code ≤ 0xFFFD) ||
    (0x10000 ≤ code && code ≤ 0x10FFFF)

/-- The character with the given code, which a document must allow. -/
def ofCode
    (code width : Nat) :
    Decoding :=
  if isAllowed code then .character (Char.ofNat code) width else .malformed .control

/-- The number of octets of a character in UTF-8, by the first of them. -/
def width?
    (first : UInt8) :
    Option Nat :=
  if first < 0x80 then some 1
  else if first < 0xC0 then none
  else if first < 0xE0 then some 2
  else if first < 0xF0 then some 3
  else if first < 0xF8 then some 4
  else none

/-- What the first octet of a character contributes to its code. -/
def leadingBits
    (width : Nat)
    (first : UInt8) :
    Nat :=
  match width with
  | 1 => first.toNat
  | 2 => first.toNat % 32
  | 3 => first.toNat % 16
  | _ => first.toNat % 8

/-- The least code that needs this number of octets. -/
def leastCode : Nat → Nat
  | 1 => 0
  | 2 => 0x80
  | 3 => 0x800
  | _ => 0x10000

/-- The first character of octets in UTF-8. -/
def ofUtf8 : List UInt8 → Decoding
  | [] => .incomplete .incomplete
  | first :: rest =>
      match width? first with
      | none => .malformed (.octets .leading)
      | some width =>
          let trailing := rest.take (width - 1)
          if trailing.length < width - 1 then
            .incomplete .incomplete
          else if trailing.any fun octet => octet < 0x80 || 0xC0 ≤ octet then
            .malformed (.octets .trailing)
          else
            let code :=
              trailing.foldl (fun code octet => code * 64 + octet.toNat % 64)
                (leadingBits width first)
            if code < leastCode width then
              .malformed (.octets .overlong)
            else if (0xD800 ≤ code && code ≤ 0xDFFF) || 0x10FFFF < code then
              .malformed (.octets .codePoint)
            else
              ofCode code width

/-- The number that two octets stand for. -/
def unit
    (bigEndian : Bool)
    (first second : UInt8) :
    Nat :=
  if bigEndian then
    first.toNat * 256 + second.toNat
  else
    second.toNat * 256 + first.toNat

/-- A unit that begins a pair. -/
def isHighSurrogate
    (unit : Nat) :
    Bool :=
  0xD800 ≤ unit && unit ≤ 0xDBFF

/-- A unit that ends a pair. -/
def isLowSurrogate
    (unit : Nat) :
    Bool :=
  0xDC00 ≤ unit && unit ≤ 0xDFFF

/-- The first character of octets in UTF-16. -/
def ofUtf16
    (bigEndian : Bool) :
    List UInt8 → Decoding
  | first :: second :: rest =>
      let high := unit bigEndian first second
      if isLowSurrogate high then
        .malformed (.octets .strayLowSurrogate)
      else if isHighSurrogate high then
        match rest with
        | third :: fourth :: _ =>
            let low := unit bigEndian third fourth
            if isLowSurrogate low then
              ofCode (0x10000 + high % 1024 * 1024 + low % 1024) 4
            else
              .malformed (.octets .expectLowSurrogate)
        | _ => .incomplete .incompletePair
      else
        ofCode high 2
  | _ => .incomplete .incompleteUnit

/-- The first character of octets. -/
def ofOctets : Encoding → List UInt8 → Decoding
  | .utf8, octets => ofUtf8 octets
  | .utf16 bigEndian, octets => ofUtf16 bigEndian octets

end Decoding

/-- Characters that are decoded together, and the fault behind them if there is one. -/
structure Portion where
  characters : List Char
  fault? : Option Fault := none
  deriving Repr

namespace Portion

/-- The number of octets that are decoded together. -/
def window : Nat := 512

/--
Decode octets behind the characters found so far, which are held last first.
The octets of a character that is not complete are left over.
-/
def decodeFrom
    (encoding : Encoding)
    (found : List Char) :
    Nat → List UInt8 → Portion × List UInt8
  | 0, octets => ({ characters := found.reverse }, octets)
  | _ + 1, [] => ({ characters := found.reverse }, [])
  | budget + 1, octets =>
      match Decoding.ofOctets encoding octets with
      | .character c width => decodeFrom encoding (c :: found) budget (octets.drop width)
      | .incomplete _ => ({ characters := found.reverse }, octets)
      | .malformed fault => ({ characters := found.reverse, fault? := some fault }, [])

/-- The fault of octets that end before their character does. -/
def ended
    (encoding : Encoding)
    (octets : List UInt8) :
    List Portion :=
  match Decoding.ofOctets encoding octets with
  | .incomplete fault =>
      if octets.isEmpty then [] else [{ characters := [], fault? := some (.octets fault) }]
  | _ => []

/-- The portions of the octets at hand and of those behind them. -/
def split
    (encoding : Encoding) :
    Nat → List UInt8 → List UInt8 → List Portion
  | 0, _, _ => []
  | budget + 1, octets, behind =>
      let (portion, left) := decodeFrom encoding [] octets.length octets
      if portion.fault?.isSome then
        [portion]
      else if behind.isEmpty then
        portion :: ended encoding left
      else
        let more := window - left.length
        portion :: split encoding budget (left ++ behind.take more) (behind.drop more)

/-- The portions of a document; a byte order mark at its beginning is dropped. -/
def ofOctets
    (octets : List UInt8) :
    List Portion :=
  let first := octets.take window
  let behind := octets.drop window
  match first with
  | 0xFF :: 0xFE :: rest => split (.utf16 false) (octets.length + 1) rest behind
  | 0xFE :: 0xFF :: rest => split (.utf16 true) (octets.length + 1) rest behind
  | 0xEF :: 0xBB :: 0xBF :: rest => split .utf8 (octets.length + 1) rest behind
  | _ => split .utf8 (octets.length + 1) first behind

end Portion

/-- The character behind the last one of a document. -/
def endMark : Char := '\x00'

/-- The rest of a document, of which a part is decoded. -/
structure Input where
  /-- The characters that are decoded and not read. -/
  unread : List Char
  /-- The number of those characters. -/
  count : Nat
  /-- The character that was first when a portion was last decoded. -/
  front : Char
  /-- What is not decoded. -/
  portions : List Portion
  deriving Repr

namespace Input

/-- A document of which nothing is decoded. -/
def ofOctets
    (octets : ByteArray) :
    Input where
  unread := []
  count := 0
  front := endMark
  portions := Portion.ofOctets octets.toList

/-- Decode portions until the wanted number of characters is at hand or the document ends. -/
def loadFrom
    (wanted : Nat)
    (unread : List Char)
    (count : Nat) :
    List Portion → List Char × Nat × List Portion × Option Fault
  | [] => (unread ++ [endMark], count + 1, [], none)
  | portion :: rest =>
      let unread := unread ++ portion.characters
      let count := count + portion.characters.length
      match portion.fault? with
      | some fault => (unread, count, [{ characters := [], fault? := some fault }], some fault)
      | none =>
          if wanted ≤ count then
            (unread, count, rest, none)
          else
            loadFrom wanted unread count rest

/-- Have the wanted number of characters at hand; beyond the document there are end marks. -/
def load
    (wanted : Nat)
    (input : Input) :
    Input × Option Fault :=
  if wanted ≤ input.count then
    (input, none)
  else
    let (unread, count, portions, fault?) :=
      loadFrom wanted input.unread input.count input.portions
    ({ unread, count, front := unread.headD endMark, portions }, fault?)

/-- The character with this many characters before it. -/
def character
    (ahead : Nat)
    (input : Input) :
    Char :=
  (input.unread.drop ahead).headD endMark

/-- The input behind a number of characters. -/
def drop
    (count : Nat)
    (input : Input) :
    Input :=
  { input with unread := input.unread.drop count, count := input.count - count }

end Input

end BlockScript.Yaml
