import BlockScript.Decimal.Basic

namespace BlockScript

/-!
# The double nearest to a fraction

A finite double without its sign is `mantissa * 2 ^ scale` in units of
`2 ^ -1074`, the smallest positive double.  Its bit pattern is
`scale * 2 ^ 52 + mantissa`: up to `2 ^ 53` the pattern is the mantissa itself,
and from there on each further doubling of the unit adds one to the exponent
field.  A mantissa that rounding carries to `2 ^ 53` therefore needs no case of
its own.
-/

namespace Double

/-- The number of explicit mantissa bits of a double. -/
def mantissaBits : Nat := 52

/-- The smallest positive double is `2 ^ -smallestExponent`. -/
def smallestExponent : Nat := 1074

/-- The bit pattern of positive infinity: every smaller pattern is a finite magnitude. -/
def infinityBits : Nat := 2047 * Nat.pow 2 mantissaBits

/-- The quotient rounded to the nearest whole number, a half going to the even one. -/
def roundHalfEven
    (numerator denominator : Nat) :
    Nat :=
  let quotient := numerator / denominator
  let twice := 2 * (numerator % denominator)
  if denominator < twice || (twice == denominator && quotient % 2 == 1) then
    quotient + 1
  else
    quotient

/--
The number of doublings of the smallest unit after which a fraction, counted in
that unit, fits the mantissa.
-/
def scaleOf
    (numerator denominator : Nat) :
    Nat :=
  (numerator * Nat.pow 2 smallestExponent / denominator).log2 - mantissaBits

/--
The bit pattern of the double nearest to a fraction, a half going to the even
mantissa.  A fraction beyond the largest double gives `infinityBits` or more.
-/
def nearestBits
    (numerator denominator : Nat) :
    Nat :=
  let scale := scaleOf numerator denominator
  scale * Nat.pow 2 mantissaBits +
    roundHalfEven (numerator * Nat.pow 2 smallestExponent) (denominator * Nat.pow 2 scale)

/-- The scale of a finite bit pattern without its sign. -/
def scale
    (bits : Nat) :
    Nat :=
  bits / Nat.pow 2 mantissaBits - 1

/-- The mantissa of a finite bit pattern without its sign, the hidden bit included. -/
def mantissa
    (bits : Nat) :
    Nat :=
  bits - scale bits * Nat.pow 2 mantissaBits

/-- The magnitude of a finite bit pattern is this number over `2 ^ smallestExponent`. -/
def unitsOf
    (bits : Nat) :
    Nat :=
  mantissa bits * Nat.pow 2 (scale bits)

/-- The bit pattern of a double without its sign bit. -/
def magnitudeBits
    (number : Float) :
    Nat :=
  number.toBits.toNat % Nat.pow 2 63

/-- The sign bit of a double; it is set for negative zero too. -/
def isNegative
    (number : Float) :
    Bool :=
  Nat.pow 2 63 ≤ number.toBits.toNat

/-- The double with the given magnitude and no sign. -/
def ofMagnitudeBits
    (bits : Nat) :
    Float :=
  Float.ofBits bits.toUInt64

end Double

namespace Decimal

/-- The bit pattern of the double nearest to a magnitude. -/
def nearestBits
    (decimal : Decimal) :
    Nat :=
  Double.nearestBits decimal.numerator decimal.denominator

/-- The double nearest to a magnitude, or nothing when it is beyond every finite double. -/
def toFloat?
    (decimal : Decimal) :
    Option Float :=
  if decimal.nearestBits < Double.infinityBits then
    some (Double.ofMagnitudeBits decimal.nearestBits)
  else
    none

end Decimal

end BlockScript
