import BlockScript.Diagnostic

namespace BlockScript

/-!
# Runtime errors

A runtime error ends the execution of a program.  It blames the operator or the
name that could not be evaluated.
-/

/-- Why an operator or a name has no value. -/
inductive RuntimeFault where
  | operandNotNumber
  | operandsNotNumbers
  | divisionByZero
  | operandsNotAddable
  | operandsNotComparable
  | undefinedVariable (name : String)
  deriving Repr, DecidableEq

namespace RuntimeFault

/-- The message for a runtime error. -/
def message : RuntimeFault → String
  | .operandNotNumber => "Operand must be a number."
  | .operandsNotNumbers => "Operands must be numbers."
  | .divisionByZero => "Division by zero."
  | .operandsNotAddable =>
      "Operands must be two numbers or at least one string and one number."
  | .operandsNotComparable => "Operands must be two numbers or two strings."
  | .undefinedVariable name => "Undefined variable '" ++ name ++ "'."

end RuntimeFault

/-- A blamed operator or name. -/
structure RuntimeError where
  token : Token
  fault : RuntimeFault
  deriving Repr, DecidableEq

/-- A runtime error as it is shown. -/
def RuntimeError.diagnostic
    (error : RuntimeError) :
    Diagnostic :=
  .runtime error.token error.fault.message

/-- The error of a name that no scope binds. -/
def RuntimeError.undefined
    (name : Token) :
    RuntimeError where
  token :=
    name
  fault :=
    .undefinedVariable name.lexeme

end BlockScript
