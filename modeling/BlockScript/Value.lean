import BlockScript.Decimal.Numeral

namespace BlockScript

/-!
# Values

A value is nothing, a truth value, a text or a number.  Values of different
kinds are never equal, and numbers are compared as doubles, so that a NaN
differs from itself and the two zeros agree.
-/

/-- A value that a program computes. -/
inductive Value where
  | nil
  | bool (truth : Bool)
  | string (content : String)
  | number (double : Float)
  deriving Repr, DecidableEq

namespace Value

/-- Only `nil` and `false` fail as conditions. -/
def isTruthy : Value → Bool
  | .nil => false
  | .bool truth => truth
  | .string _ => true
  | .number _ => true

/-- Equality as programs see it. -/
def equals : Value → Value → Bool
  | .nil, .nil => true
  | .bool left, .bool right => left == right
  | .string left, .string right => left == right
  | .number left, .number right => left == right
  | _, _ => false

/-- The text that printing a value writes. -/
def text : Value → String
  | .nil => "nil"
  | .bool true => "true"
  | .bool false => "false"
  | .string content => content
  | .number double => Numeral.text .plain double

/-- The text of a value in a listing of tokens. -/
def listed : Value → String
  | .nil => "<nil>"
  | .bool true => "true"
  | .bool false => "false"
  | .string content => content
  | .number double => Numeral.text .compact double

end Value

end BlockScript
