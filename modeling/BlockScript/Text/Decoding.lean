namespace BlockScript.Text

/-!
# Decoding UTF-8

Octets are decoded to characters.  An octet that does not begin a well-formed
sequence becomes one replacement character, and decoding goes on with the next
octet, so that a malformed sequence gives one replacement for each of its
octets.  Surrogates, overlong forms and code points beyond U+10FFFF are
malformed.
-/

/-- The character that stands for an octet outside every well-formed sequence. -/
def replacement : Char := '\uFFFD'

/-- An octet that continues a sequence. -/
def isContinuation
    (octet : UInt8) :
    Bool :=
  0x80 ≤ octet && octet ≤ 0xBF

/-- The six bits that a continuing octet contributes. -/
def payload
    (octet : UInt8) :
    Nat :=
  octet.toNat % 64

/-- The character of a well-formed sequence of two octets. -/
def twoOctets?
    (first second : UInt8) :
    Option Char :=
  if 0xC2 ≤ first && first ≤ 0xDF && isContinuation second then
    some (Char.ofNat (first.toNat % 32 * 64 + payload second))
  else
    none

/-- The character of a well-formed sequence of three octets. -/
def threeOctets?
    (first second third : UInt8) :
    Option Char :=
  let code := first.toNat % 16 * 4096 + payload second * 64 + payload third
  if 0xE0 ≤ first && first ≤ 0xEF && isContinuation second && isContinuation third &&
      0x800 ≤ code && (code < 0xD800 || 0xDFFF < code) then
    some (Char.ofNat code)
  else
    none

/-- The character of a well-formed sequence of four octets. -/
def fourOctets?
    (first second third fourth : UInt8) :
    Option Char :=
  let code :=
    first.toNat % 8 * 262144 + payload second * 4096 + payload third * 64 + payload fourth
  if 0xF0 ≤ first && first ≤ 0xF4 && isContinuation second && isContinuation third &&
      isContinuation fourth && 0x10000 ≤ code && code ≤ 0x10FFFF then
    some (Char.ofNat code)
  else
    none

/-- Decode the remaining octets after the characters found so far, which are held last first. -/
def decodeFrom
    (found : List Char) :
    List UInt8 → List Char
  | [] => found.reverse
  | first :: rest =>
      if first < 0x80 then
        decodeFrom (Char.ofNat first.toNat :: found) rest
      else
        match rest with
        | [] => decodeFrom (replacement :: found) []
        | second :: afterTwo =>
            match twoOctets? first second with
            | some c => decodeFrom (c :: found) afterTwo
            | none =>
                match afterTwo with
                | [] => decodeFrom (replacement :: found) (second :: [])
                | third :: afterThree =>
                    match threeOctets? first second third with
                    | some c => decodeFrom (c :: found) afterThree
                    | none =>
                        match afterThree with
                        | [] => decodeFrom (replacement :: found) (second :: third :: [])
                        | fourth :: afterFour =>
                            match fourOctets? first second third fourth with
                            | some c => decodeFrom (c :: found) afterFour
                            | none =>
                                decodeFrom (replacement :: found)
                                  (second :: third :: fourth :: afterFour)

/-- The text that a sequence of octets stands for. -/
def decode
    (octets : ByteArray) :
    String :=
  String.ofList (decodeFrom [] octets.toList)

end BlockScript.Text
