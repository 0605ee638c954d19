import BlockScript.Decimal.Nearest

namespace BlockScript.Decimal

/-!
# The shortest decimal that reads back

A finite positive double is written with the fewest significant digits that
round to it again, and among those with the digits nearest to it.  For each
count of digits only the two decimals around the double need a trial: if any
decimal with that many digits rounds to the double, so does one of these two.

A trial is the reader itself, so that whatever is chosen reads back; after
seventeen digits the exact expansion would be taken.
-/

/-- The number of decimal digits of a number; zero has one. -/
def digitCount
    (value : Nat) :
    Nat :=
  (digitsOf value).length

/-- The power of ten of the leading digit of a positive fraction. -/
def leadingExponent
    (numerator denominator : Nat) :
    Int :=
  if denominator ≤ numerator then
    digitCount (numerator / denominator) - 1
  else
    -digitCount ((denominator - 1) / numerator)

/-- A magnitude in which a power of ten is written with the single digit one. -/
def normalised
    (digits count : Nat)
    (exponent : Int) :
    Decimal :=
  if digits = Nat.pow 10 count then
    { digits := 1, exponent := exponent + count }
  else
    { digits, exponent }

/--
The two decimals with `count` significant digits around a fraction whose
leading digit stands at `leading`, the nearer one first.
-/
def neighbours
    (numerator denominator : Nat)
    (leading : Int)
    (count : Nat) :
    Decimal × Decimal :=
  let exponent := leading + 1 - count
  let scaledNumerator := numerator * Nat.pow 10 (-exponent).toNat
  let scaledDenominator := denominator * Nat.pow 10 exponent.toNat
  let below := scaledNumerator / scaledDenominator
  let twice := 2 * (scaledNumerator % scaledDenominator)
  let lower := normalised below count exponent
  let upper := normalised (below + 1) count exponent
  if twice < scaledDenominator || (twice == scaledDenominator && below % 2 == 0) then
    (lower, upper)
  else
    (upper, lower)

/-- The first of two decimals that rounds to the given double. -/
def firstRoundingTo?
    (bits : Nat)
    (nearer farther : Decimal) :
    Option Decimal :=
  if nearer.nearestBits = bits then
    some nearer
  else if farther.nearestBits = bits then
    some farther
  else
    none

/-- The neighbour with `count` digits that rounds to the given double, the nearer one if both do. -/
def withDigits?
    (bits : Nat)
    (leading : Int)
    (count : Nat) :
    Option Decimal :=
  let around :=
    neighbours (Double.unitsOf bits) (Nat.pow 2 Double.smallestExponent) leading count
  firstRoundingTo? bits around.1 around.2

/-- Every digit of a double: a power of two below the line is a power of five above it. -/
def exact
    (bits : Nat) :
    Decimal where
  digits :=
    Double.unitsOf bits * Nat.pow 5 Double.smallestExponent
  exponent :=
    -(Double.smallestExponent : Int)

/-- The most significant digits that are tried before the exact expansion. -/
def mostDigits : Nat := 17

/-- The shortest decimal that rounds to the double with this bit pattern without its sign. -/
def shortest
    (bits : Nat) :
    Decimal :=
  if bits = 0 then
    { digits := 0, exponent := 0 }
  else
    let leading :=
      leadingExponent (Double.unitsOf bits) (Nat.pow 2 Double.smallestExponent)
    ((List.range mostDigits).findSome? fun fewer =>
      withDigits? bits leading (fewer + 1)).getD (exact bits)

end BlockScript.Decimal
