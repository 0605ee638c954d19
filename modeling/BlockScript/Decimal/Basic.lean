namespace BlockScript

/-!
# Decimal magnitudes

A decimal magnitude is a whole number of digits scaled by a power of ten.  It is
what a written number denotes before it is rounded to a double, and what a
double is turned into before it is written.

`Decimal.ofText?` reads digits with at most one point between them, and
`Decimal.plainText` writes a magnitude back without an exponent.
-/

/-- The magnitude `digits * 10 ^ exponent`. -/
structure Decimal where
  digits : Nat
  exponent : Int
  deriving Repr, DecidableEq

/-- An ASCII decimal digit. -/
def isDigit (c : Char) : Bool :=
  '0' ≤ c && c ≤ '9'

/-- The value of a digit up to base sixteen. -/
def digit?
    (base : Nat)
    (c : Char) :
    Option Nat :=
  let value :=
    if isDigit c then c.toNat - '0'.toNat
    else if 'a' ≤ c && c ≤ 'f' then c.toNat - 'a'.toNat + 10
    else if 'A' ≤ c && c ≤ 'F' then c.toNat - 'A'.toNat + 10
    else base
  if value < base then some value else none

namespace Decimal

/-- The value of one digit character. -/
def digitValue (c : Char) : Nat :=
  c.toNat - '0'.toNat

/-- The value of a run of digits, the most significant first. -/
def valueOfDigits (digits : List Char) : Nat :=
  digits.foldl (fun value c => 10 * value + digitValue c) 0

/-- The digits of a number, the most significant first; zero has one digit. -/
def digitsOf (value : Nat) : List Char :=
  Nat.toDigits 10 value

/-- The fraction `numerator / denominator` that a magnitude stands for. -/
def numerator (decimal : Decimal) : Nat :=
  decimal.digits * Nat.pow 10 decimal.exponent.toNat

/-- The power of ten below the fraction line; one when the exponent is not negative. -/
def denominator (decimal : Decimal) : Nat :=
  Nat.pow 10 (-decimal.exponent).toNat

/-- The magnitude with the given digits before and after the point. -/
def ofParts
    (whole fraction : List Char) :
    Decimal where
  digits :=
    valueOfDigits (whole ++ fraction)
  exponent :=
    -fraction.length

/--
Read digits with at most one point among them.  A text without a digit, or with
a second point, is refused.
-/
def ofText?
    (text : List Char) :
    Option Decimal :=
  let whole := text.takeWhile (· != '.')
  let fraction := (text.dropWhile (· != '.')).drop 1
  let digits := whole ++ fraction
  if !digits.isEmpty && digits.all isDigit then
    some (ofParts whole fraction)
  else
    none

/--
Write a magnitude without an exponent: trailing zeros make up for a positive
exponent, and a negative one places the point, after a zero if need be.
-/
def plainText
    (decimal : Decimal) :
    List Char :=
  match decimal.exponent with
  | .ofNat zeros =>
      digitsOf decimal.digits ++ List.replicate zeros '0'
  | .negSucc below =>
      let places := below + 1
      let digits := digitsOf decimal.digits
      let padded := List.replicate (places + 1 - digits.length) '0' ++ digits
      padded.take (padded.length - places) ++ '.' :: padded.drop (padded.length - places)

end Decimal

end BlockScript
