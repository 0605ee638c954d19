import BlockScript.Tree.Basic
import BlockScript.Text.Quoted

namespace BlockScript

/-!
# Outlines

The outline of a tree writes each construct in parentheses with its sign first,
so that the grouping of an expression can be seen.  Texts are quoted.
-/

namespace Expr

/-- The outline of an expression. -/
def outline : Expr → String
  | .assign name value => "(= " ++ name.lexeme ++ " " ++ value.outline ++ ")"
  | .binary token _ left right =>
      "(" ++ token.lexeme ++ " " ++ left.outline ++ " " ++ right.outline ++ ")"
  | .group inner => "(group " ++ inner.outline ++ ")"
  | .literal (.string text) => Text.quote text
  | .literal value => value.text
  | .conditional condition thenValue elseValue =>
      "(?: " ++ condition.outline ++ " " ++ thenValue.outline ++ " " ++ elseValue.outline ++ ")"
  | .unary token _ operand => "(" ++ token.lexeme ++ " " ++ operand.outline ++ ")"
  | .lookup name => name.lexeme

end Expr

namespace Stmt

mutual

/-- The outline of a statement. -/
def outline : Stmt → String
  | .block body => "(block" ++ outlineAll body ++ ")"
  | .leave _ => "(break)"
  | .expression value => "(; " ++ value.outline ++ ")"
  | .ifThen condition thenBranch =>
      "(if " ++ condition.outline ++ " " ++ thenBranch.outline ++ ")"
  | .ifElse condition thenBranch elseBranch =>
      "(if " ++ condition.outline ++ " " ++ thenBranch.outline ++ " " ++ elseBranch.outline ++ ")"
  | .print value => "(print " ++ value.outline ++ ")"
  | .declare name none => "(var " ++ name.lexeme ++ ")"
  | .declare name (some initial) => "(var " ++ name.lexeme ++ " " ++ initial.outline ++ ")"
  | .loop condition body => "(while " ++ condition.outline ++ " " ++ body.outline ++ ")"

/-- The outlines of the statements of a block, each after a space. -/
def outlineAll : List Stmt → String
  | [] => ""
  | first :: rest => " " ++ first.outline ++ outlineAll rest

end

end Stmt

end BlockScript
