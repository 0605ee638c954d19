import BlockScript.Tree.Operator
import BlockScript.Execution.Fault
import BlockScript.Text.Order

namespace BlockScript

/-!
# What operators compute

Numbers follow double arithmetic, except that dividing by either zero is an
error.  Texts are compared by their octets in UTF-8.  A text and a number add up
to a longer text.
-/

/-- Apply an operator to one value. -/
def UnaryOperator.apply : UnaryOperator → Value → Except RuntimeFault Value
  | .not, operand => .ok (.bool !operand.isTruthy)
  | .negate, .number operand => .ok (.number (-operand))
  | .negate, _ => .error .operandNotNumber

/-- A comparison of two values by their order. -/
inductive Comparison where
  | greater
  | greaterEqual
  | less
  | lessEqual
  deriving Repr, DecidableEq

namespace Comparison

/-- Whether two numbers compare so; a NaN is ordered with nothing. -/
def holdsOfNumbers
    (left right : Float) :
    Comparison → Bool
  | .greater => right < left
  | .greaterEqual => right ≤ left
  | .less => left < right
  | .lessEqual => left ≤ right

/-- Whether two texts compare so. -/
def holdsOfTexts
    (left right : String) :
    Comparison → Bool
  | .greater => Text.comesBefore right left
  | .greaterEqual => !Text.comesBefore left right
  | .less => Text.comesBefore left right
  | .lessEqual => !Text.comesBefore right left

/-- Compare two numbers or two texts. -/
def apply
    (comparison : Comparison) :
    Value → Value → Except RuntimeFault Value
  | .number left, .number right => .ok (.bool (comparison.holdsOfNumbers left right))
  | .string left, .string right => .ok (.bool (comparison.holdsOfTexts left right))
  | _, _ => .error .operandsNotComparable

end Comparison

namespace Value

/-- Add two numbers, or join two texts or a text and a number. -/
def add : Value → Value → Except RuntimeFault Value
  | .number left, .number right => .ok (.number (left + right))
  | .string left, .string right => .ok (.string (left ++ right))
  | .string left, .number right => .ok (.string (left ++ Value.text (.number right)))
  | .number left, .string right => .ok (.string (Value.text (.number left) ++ right))
  | _, _ => .error .operandsNotAddable

/-- Subtract two numbers. -/
def subtract : Value → Value → Except RuntimeFault Value
  | .number left, .number right => .ok (.number (left - right))
  | _, _ => .error .operandsNotNumbers

/-- Multiply two numbers. -/
def multiply : Value → Value → Except RuntimeFault Value
  | .number left, .number right => .ok (.number (left * right))
  | _, _ => .error .operandsNotNumbers

/-- Divide two numbers. -/
def divide : Value → Value → Except RuntimeFault Value
  | .number left, .number right =>
      if right == 0 then .error .divisionByZero else .ok (.number (left / right))
  | _, _ => .error .operandsNotNumbers

end Value

/-- Apply an operator to two values. -/
def BinaryOperator.apply : BinaryOperator → Value → Value → Except RuntimeFault Value
  | .comma, _, right => .ok right
  | .equal, left, right => .ok (.bool (left.equals right))
  | .notEqual, left, right => .ok (.bool !left.equals right)
  | .greater, left, right => Comparison.greater.apply left right
  | .greaterEqual, left, right => Comparison.greaterEqual.apply left right
  | .less, left, right => Comparison.less.apply left right
  | .lessEqual, left, right => Comparison.lessEqual.apply left right
  | .add, left, right => left.add right
  | .subtract, left, right => left.subtract right
  | .multiply, left, right => left.multiply right
  | .divide, left, right => left.divide right

end BlockScript
