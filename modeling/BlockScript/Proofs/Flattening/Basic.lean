import BlockScript.Proofs.Grammar.Derivation
import BlockScript.Tree.Basic

namespace BlockScript

/-!
# Writing trees as tokens

Flattening writes a tree as the tokens of its source.  A tree keeps its names,
its operators and the words that leave a loop; brackets, semicolons, the other
words and the signs of assignments and conditional expressions are put back.

A tree is canonical when its flattening can only be read as that tree: every
operand is tight enough for its place, and no conditional takes the alternative
of another.
-/

namespace Token

/-- A mark that a tree does not keep. -/
def ofMark
    (sign : Mark) :
    Token where
  kind := .mark sign
  lexeme := sign.spelling
  literal := .nil
  line := 1

/-- A reserved word that a tree does not keep. -/
def ofWord
    (word : Keyword) :
    Token where
  kind := .keyword word
  lexeme := word.spelling
  literal := .nil
  line := 1

/-- The token that carries a value. -/
def ofValue : Value → Token
  | .nil => ofWord .nilWord
  | .bool true => ofWord .trueWord
  | .bool false => ofWord .falseWord
  | .string content =>
      { kind := .string, lexeme := "\"" ++ content ++ "\"", literal := .string content, line := 1 }
  | .number double =>
      { kind := .number, lexeme := (Value.number double).text, literal := .number double, line := 1 }

end Token

namespace Expr

/-- The tokens of an expression. -/
def flatten : Expr → List Token
  | .assign name value => name :: .ofMark .equal :: value.flatten
  | .binary token _ left right => left.flatten ++ token :: right.flatten
  | .group inner => .ofMark .leftParen :: (inner.flatten ++ [.ofMark .rightParen])
  | .literal value => [.ofValue value]
  | .conditional condition thenValue elseValue =>
      condition.flatten ++
        .ofMark .question :: (thenValue.flatten ++ .ofMark .colon :: elseValue.flatten)
  | .unary token _ operand => token :: operand.flatten
  | .lookup name => [name]

/-- The level of the outermost construct; a primary expression is as tight as a unary one. -/
def level : Expr → Level
  | .assign .. => .assignment
  | .binary _ operator _ _ => operator.level
  | .conditional .. => .conditional
  | .group _ | .literal _ | .unary .. | .lookup _ => .unary

/-- Whether an expression may stand unbracketed where the given level is asked for. -/
def fits
    (asked : Level)
    (expr : Expr) :
    Bool :=
  asked.rank ≤ expr.level.rank

/--
Whether names are names, operators are the signs they are kept with, and every
operand fits its place: binary operators nest to the left, conditional
expressions and assignments to the right.
-/
def isCanonical : Expr → Bool
  | .assign name value =>
      name.kind = .identifier && value.fits .assignment && value.isCanonical
  | .binary token operator left right =>
      BinaryOperator.ofKind? token.kind = some operator &&
        left.fits operator.level && right.fits (Grammar.tighter operator.level) &&
          left.isCanonical && right.isCanonical
  | .group inner => inner.isCanonical
  | .literal _ => true
  | .conditional condition thenValue elseValue =>
      condition.fits .equality && elseValue.fits .conditional &&
        condition.isCanonical && thenValue.isCanonical && elseValue.isCanonical
  | .unary token operator operand =>
      UnaryOperator.ofKind? token.kind = some operator && operand.fits .unary &&
        operand.isCanonical
  | .lookup name => name.kind = .identifier

end Expr

namespace Stmt

mutual

/-- The tokens of a statement. -/
def flatten : Stmt → List Token
  | .block body => .ofMark .leftBrace :: (flattenAll body ++ [.ofMark .rightBrace])
  | .leave word => [word, .ofMark .semicolon]
  | .expression value => value.flatten ++ [.ofMark .semicolon]
  | .ifThen condition thenBranch =>
      .ofWord .ifWord :: .ofMark .leftParen ::
        (condition.flatten ++ .ofMark .rightParen :: thenBranch.flatten)
  | .ifElse condition thenBranch elseBranch =>
      .ofWord .ifWord :: .ofMark .leftParen ::
        (condition.flatten ++
          .ofMark .rightParen :: (thenBranch.flatten ++ .ofWord .elseWord :: elseBranch.flatten))
  | .print value => .ofWord .printWord :: (value.flatten ++ [.ofMark .semicolon])
  | .declare name none => [.ofWord .varWord, name, .ofMark .semicolon]
  | .declare name (some initial) =>
      .ofWord .varWord :: name :: .ofMark .equal :: (initial.flatten ++ [.ofMark .semicolon])
  | .loop condition body =>
      .ofWord .whileWord :: .ofMark .leftParen ::
        (condition.flatten ++ .ofMark .rightParen :: body.flatten)

/-- The tokens of several statements. -/
def flattenAll : List Stmt → List Token
  | [] => []
  | statement :: others => statement.flatten ++ flattenAll others

end

/-- Whether a statement ends in a conditional that an `else` could still extend. -/
def ending : Stmt → Grammar.Ending
  | .ifThen .. => .extensible
  | .ifElse _ _ elseBranch => elseBranch.ending
  | .loop _ body => body.ending
  | _ => .closed

mutual

/--
Whether a statement is canonical inside or outside a loop.  A declaration is not
a statement, and the first branch of a conditional with an alternative is closed.
-/
def isCanonical (inLoop : Bool) : Stmt → Bool
  | .block body => areCanonical inLoop body
  | .leave word => word.kind = .keyword .breakWord && inLoop
  | .expression value => value.isCanonical
  | .ifThen condition thenBranch => condition.isCanonical && thenBranch.isCanonical inLoop
  | .ifElse condition thenBranch elseBranch =>
      condition.isCanonical && thenBranch.ending = .closed &&
        thenBranch.isCanonical inLoop && elseBranch.isCanonical inLoop
  | .print value => value.isCanonical
  | .declare .. => false
  | .loop condition body => condition.isCanonical && body.isCanonical true

/-- Whether the declarations and statements of a block or a program are canonical. -/
def areCanonical (inLoop : Bool) : List Stmt → Bool
  | [] => true
  | .declare name initial :: others =>
      name.kind = .identifier && initial.all Expr.isCanonical && areCanonical inLoop others
  | statement :: others => statement.isCanonical inLoop && areCanonical inLoop others

end

end Stmt

end BlockScript
