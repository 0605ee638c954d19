namespace BlockScript.Text.Base64

/-!
# Base 64

Octets are written as characters of six bits each, four of them for three
octets.  The last group is filled up with equals signs.  Line breaks count for
nothing.
-/

/-- The six bits that a character stands for. -/
def value?
    (c : Char) :
    Option Nat :=
  if 'A' ≤ c && c ≤ 'Z' then some (c.toNat - 'A'.toNat)
  else if 'a' ≤ c && c ≤ 'z' then some (c.toNat - 'a'.toNat + 26)
  else if '0' ≤ c && c ≤ '9' then some (c.toNat - '0'.toNat + 52)
  else if c == '+' then some 62
  else if c == '/' then some 63
  else none

/-- Decode characters behind the octets found, which are held last first. -/
def decodeFrom?
    (found : List UInt8) :
    List Char → Option (List UInt8)
  | [] => some found.reverse
  | [first, second, '=', '='] => do
      let bits := 64 * (← value? first) + (← value? second)
      return (UInt8.ofNat (bits / 16) :: found).reverse
  | [first, second, third, '='] => do
      let bits := 4096 * (← value? first) + 64 * (← value? second) + (← value? third)
      return (UInt8.ofNat (bits / 4) :: UInt8.ofNat (bits / 1024) :: found).reverse
  | first :: second :: third :: fourth :: rest => do
      let bits :=
        262144 * (← value? first) + 4096 * (← value? second) + 64 * (← value? third) +
          (← value? fourth)
      decodeFrom?
        (UInt8.ofNat bits :: UInt8.ofNat (bits / 256) :: UInt8.ofNat (bits / 65536) :: found) rest
  | _ => none

/-- The octets that a text stands for. -/
def decode?
    (text : String) :
    Option ByteArray :=
  (decodeFrom? [] (text.toList.filter fun c => c != '\n' && c != '\r')).map
    fun octets => ⟨octets.toArray⟩

end BlockScript.Text.Base64
