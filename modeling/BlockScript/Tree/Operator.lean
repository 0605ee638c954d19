import BlockScript.Token.Basic

namespace BlockScript

/-!
# Operators

Each operator is written with one mark.  The minus sign is an operator in both
places: before one operand and between two.
-/

/-- An operator before its operand. -/
inductive UnaryOperator where
  | negate
  | not
  deriving Repr, DecidableEq

/-- An operator between two operands. -/
inductive BinaryOperator where
  | comma
  | equal
  | notEqual
  | greater
  | greaterEqual
  | less
  | lessEqual
  | add
  | subtract
  | multiply
  | divide
  deriving Repr, DecidableEq

/-- The operator that a token stands for before an operand. -/
def UnaryOperator.ofKind? : Kind → Option UnaryOperator
  | .mark .minus => some .negate
  | .mark .bang => some .not
  | _ => none

/-- The operator that a token stands for between two operands. -/
def BinaryOperator.ofKind? : Kind → Option BinaryOperator
  | .mark .comma => some .comma
  | .mark .equalEqual => some .equal
  | .mark .bangEqual => some .notEqual
  | .mark .greater => some .greater
  | .mark .greaterEqual => some .greaterEqual
  | .mark .less => some .less
  | .mark .lessEqual => some .lessEqual
  | .mark .plus => some .add
  | .mark .minus => some .subtract
  | .mark .star => some .multiply
  | .mark .slash => some .divide
  | _ => none

/--
How tightly a construct holds its operands together, from the comma upwards.
A binary operator takes operands of its own level on the left and of the next
level on the right.
-/
inductive Level where
  | comma
  | assignment
  | conditional
  | equality
  | comparison
  | addition
  | multiplication
  | unary
  deriving Repr, DecidableEq

namespace Level

/-- The place of a level in the order of levels. -/
def rank : Level → Nat
  | .comma => 0
  | .assignment => 1
  | .conditional => 2
  | .equality => 3
  | .comparison => 4
  | .addition => 5
  | .multiplication => 6
  | .unary => 7

end Level

/-- The level of a binary operator. -/
def BinaryOperator.level : BinaryOperator → Level
  | .comma => .comma
  | .equal | .notEqual => .equality
  | .greater | .greaterEqual | .less | .lessEqual => .comparison
  | .add | .subtract => .addition
  | .multiply | .divide => .multiplication

/-- A token was used as an operator that it is not. -/
inductive OperatorFault where
  | notUnary (kind : Kind)
  | notBinary (kind : Kind)
  deriving Repr, DecidableEq

namespace OperatorFault

/-- The message for a token that is not the operator it was used as. -/
def message : OperatorFault → String
  | .notUnary kind => kind.name ++ " has no corresponding unary operator"
  | .notBinary kind => kind.name ++ " has no corresponding binary operator"

end OperatorFault

end BlockScript
