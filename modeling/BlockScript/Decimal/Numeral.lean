import BlockScript.Decimal.Shortest

namespace BlockScript.Numeral

/-!
# Numbers as text

A finite number is written with the shortest decimal that reads back, after a
minus sign when its sign bit is set.  A layout decides from the power of ten of
the leading digit whether the decimal is written in full or with an exponent.
-/

/-- Where a number is written with an exponent, by the power of ten of its leading digit. -/
structure Layout where
  usesExponent : Int → Bool

namespace Layout

/-- Every number is written in full. -/
def plain : Layout where
  usesExponent := fun _ => false

/-- Numbers below `0.0001` and from a million on are written with an exponent. -/
def compact : Layout where
  usesExponent := fun leading => leading < -4 || 6 ≤ leading

end Layout

/-- The power of ten of the leading digit of a decimal. -/
def leadingPower
    (decimal : Decimal) :
    Int :=
  decimal.exponent + Decimal.digitCount decimal.digits - 1

/-- A power of ten with its sign and at least two digits. -/
def powerText
    (power : Int) :
    List Char :=
  let digits := Decimal.digitsOf power.natAbs
  (if power < 0 then '-' else '+') ::
    (List.replicate (2 - digits.length) '0' ++ digits)

/-- One digit before the point, the others after it, and the power of ten. -/
def exponentText
    (decimal : Decimal) :
    List Char :=
  let power := 'e' :: powerText (leadingPower decimal)
  match Decimal.digitsOf decimal.digits with
  | leading :: next :: rest => leading :: '.' :: next :: rest ++ power
  | digits => digits ++ power

/-- The text of a decimal in the given layout. -/
def decimalText
    (layout : Layout)
    (decimal : Decimal) :
    List Char :=
  if layout.usesExponent (leadingPower decimal) then
    exponentText decimal
  else
    decimal.plainText

/-- The text of a number in the given layout. -/
def text
    (layout : Layout)
    (number : Float) :
    String :=
  let bits := Double.magnitudeBits number
  if Double.infinityBits < bits then
    "NaN"
  else if bits = Double.infinityBits then
    if Double.isNegative number then "-Inf" else "+Inf"
  else
    let magnitude := decimalText layout (Decimal.shortest bits)
    String.ofList (if Double.isNegative number then '-' :: magnitude else magnitude)

/-- The number that a text written in the plain layout stands for. -/
def ofText?
    (text : String) :
    Option Float :=
  match text with
  | "NaN" => some (Float.ofBits 0x7FF8000000000001)
  | "+Inf" => some (Double.ofMagnitudeBits Double.infinityBits)
  | "-Inf" => some (-Double.ofMagnitudeBits Double.infinityBits)
  | _ =>
      match text.toList with
      | '-' :: magnitude => do
          let decimal ← Decimal.ofText? magnitude
          let number ← decimal.toFloat?
          return -number
      | magnitude => do
          let decimal ← Decimal.ofText? magnitude
          decimal.toFloat?

end BlockScript.Numeral
