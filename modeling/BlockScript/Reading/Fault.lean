import BlockScript.Token.Basic

namespace BlockScript

/-!
# Grammar errors

A grammar error blames one token.  Most say what was expected in its place; two
blame a token that the grammar allows: an assignment to something that is not a
variable, and leaving a loop outside every loop.
-/

/-- Why a token is blamed. -/
inductive GrammarFault where
  | expectVariableName
  | expectSemicolonAfterDeclaration
  | expectParenAfterFor
  | expectSemicolonAfterLoopCondition
  | expectParenAfterForClauses
  | expectParenAfterIf
  | expectParenAfterIfCondition
  | expectSemicolonAfterValue
  | expectParenAfterWhile
  | expectParenAfterCondition
  | breakOutsideLoop
  | expectSemicolonAfterBreak
  | expectBraceAfterBlock
  | expectSemicolonAfterExpression
  | invalidAssignmentTarget
  | expectColonAfterThenValue
  | expectParenAfterExpression
  | expectExpression
  deriving Repr, DecidableEq

namespace GrammarFault

/-- The message for a blamed token. -/
def message : GrammarFault → String
  | .expectVariableName => "Expect variable name."
  | .expectSemicolonAfterDeclaration => "Expect ';' after variable declaration."
  | .expectParenAfterFor => "Expect '(' after 'for'."
  | .expectSemicolonAfterLoopCondition => "Expect ';' after loop condition."
  | .expectParenAfterForClauses => "Expect ')' after for clauses."
  | .expectParenAfterIf => "Expect '(' after 'if'."
  | .expectParenAfterIfCondition => "Expect ')' after if condition."
  | .expectSemicolonAfterValue => "Expect ';' after value."
  | .expectParenAfterWhile => "Expect '(' after 'while'."
  | .expectParenAfterCondition => "Expect ')' after condition."
  | .breakOutsideLoop => "Must be inside a loop to use 'break'."
  | .expectSemicolonAfterBreak => "Expect ';' after 'break'."
  | .expectBraceAfterBlock => "Expect '\x7d' after block."
  | .expectSemicolonAfterExpression => "Expect ';' after expression."
  | .invalidAssignmentTarget => "Invalid assignment target."
  | .expectColonAfterThenValue => "Expect ':' after then branch of conditional expression."
  | .expectParenAfterExpression => "Expect ')' after expression."
  | .expectExpression => "Expect expression."

end GrammarFault

/-- A blamed token. -/
structure GrammarError where
  token : Token
  fault : GrammarFault
  deriving Repr, DecidableEq

end BlockScript
