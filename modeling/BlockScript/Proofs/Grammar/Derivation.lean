import BlockScript.Tree.Operator

namespace BlockScript.Grammar

/-!
# The grammar of programs

The grammar derives lists of tokens without an end token.

```text
program        --> declaration*
declaration    --> varDeclaration | statement
varDeclaration --> "var" IDENT ( "=" expression )? ";"
statement      --> block | break | expression ";" | for | if | print | while
block          --> "{" declaration* "}"
break          --> "break" ";"
for            --> "for" "(" ( varDeclaration | expression ";" | ";" ) expression? ";"
                   expression? ")" statement
if             --> "if" "(" expression ")" statement ( "else" statement )?
print          --> "print" expression ";"
while          --> "while" "(" expression ")" statement
expression     --> comma
comma          --> assignment ( "," assignment )*
assignment     --> conditional ( "=" assignment )?
conditional    --> equality ( "?" expression ":" conditional )?
equality       --> comparison ( ( "!=" | "==" ) comparison )*
comparison     --> addition ( ( ">" | ">=" | "<" | "<=" ) addition )*
addition       --> multiplication ( ( "-" | "+" ) multiplication )*
multiplication --> unary ( ( "/" | "*" ) unary )*
unary          --> ( "!" | "-" ) unary | primary
primary        --> NUMBER | STRING | IDENT | "true" | "false" | "nil"
                 | "(" expression ")"
```

A nonterminal for statements says two more things.  `inLoop` tells whether the
statement lies in the body of a loop.  Its ending tells whether the statement
ends in a conditional without an alternative; the first branch of a conditional
with an alternative may not, so that an `else` belongs to the nearest `if`.

A checked derivation also keeps two side conditions: only a bare name is
assigned to, and a loop is left only from its body.
-/

/-- Whether a statement ends in a conditional that an `else` could still extend. -/
inductive Ending where
  | closed
  | extensible
  deriving Repr, DecidableEq

/-- A nonterminal of the grammar; expressions are named by their level. -/
inductive Nonterminal where
  | program
  | declarations (inLoop : Bool)
  | declaration (inLoop : Bool)
  | varDeclaration
  | statement (inLoop : Bool) (ending : Ending)
  | block (inLoop : Bool)
  | breakStatement (inLoop : Bool)
  | expressionStatement
  | forStatement (inLoop : Bool) (ending : Ending)
  | forInitial
  | ifStatement (inLoop : Bool) (ending : Ending)
  | printStatement
  | whileStatement (inLoop : Bool) (ending : Ending)
  | optionalExpression
  | expression
  | operation (level : Level)
  | primary
  deriving Repr

/-- The next tighter level; nothing is tighter than a unary operator. -/
def tighter : Level → Level
  | .comma => .assignment
  | .assignment => .conditional
  | .conditional => .equality
  | .equality => .comparison
  | .comparison => .addition
  | .addition => .multiplication
  | .multiplication => .unary
  | .unary => .unary

/-- The signs between the operands of a level. -/
def signs : Level → List Mark
  | .comma => [.comma]
  | .equality => [.bangEqual, .equalEqual]
  | .comparison => [.greater, .greaterEqual, .less, .lessEqual]
  | .addition => [.minus, .plus]
  | .multiplication => [.slash, .star]
  | .assignment | .conditional | .unary => []

/-- The kinds of token that are a primary expression on their own. -/
def atoms : List Kind :=
  [.number, .string, .identifier, .keyword .trueWord, .keyword .falseWord, .keyword .nilWord]

/-- A nonterminal derives a list of tokens; a repetition derives its last part last. -/
inductive Derives (checked : Bool) : Nonterminal → List Token → Prop where
  | program
      {tokens : List Token}
      (parts : Derives checked (.declarations false) tokens) :
      Derives checked .program tokens
  | noDeclarations
      {inLoop : Bool} :
      Derives checked (.declarations inLoop) []
  | moreDeclarations
      {inLoop : Bool}
      {before last : List Token}
      (earlier : Derives checked (.declarations inLoop) before)
      (final : Derives checked (.declaration inLoop) last) :
      Derives checked (.declarations inLoop) (before ++ last)
  | variableDeclaration
      {inLoop : Bool}
      {tokens : List Token}
      (declares : Derives checked .varDeclaration tokens) :
      Derives checked (.declaration inLoop) tokens
  | statementDeclaration
      {inLoop : Bool}
      {ending : Ending}
      {tokens : List Token}
      (statement : Derives checked (.statement inLoop ending) tokens) :
      Derives checked (.declaration inLoop) tokens
  | bareVariable
      {word name semicolon : Token}
      (begins : word.kind = .keyword .varWord)
      (named : name.kind = .identifier)
      (ends : semicolon.kind = .mark .semicolon) :
      Derives checked .varDeclaration [word, name, semicolon]
  | initializedVariable
      {word name equals semicolon : Token}
      {initial : List Token}
      (begins : word.kind = .keyword .varWord)
      (named : name.kind = .identifier)
      (assigns : equals.kind = .mark .equal)
      (value : Derives checked .expression initial)
      (ends : semicolon.kind = .mark .semicolon) :
      Derives checked .varDeclaration (word :: name :: equals :: (initial ++ [semicolon]))
  | blockIsStatement
      {inLoop : Bool}
      {tokens : List Token}
      (block : Derives checked (.block inLoop) tokens) :
      Derives checked (.statement inLoop .closed) tokens
  | breakIsStatement
      {inLoop : Bool}
      {tokens : List Token}
      (leaves : Derives checked (.breakStatement inLoop) tokens) :
      Derives checked (.statement inLoop .closed) tokens
  | expressionIsStatement
      {inLoop : Bool}
      {tokens : List Token}
      (expression : Derives checked .expressionStatement tokens) :
      Derives checked (.statement inLoop .closed) tokens
  | forIsStatement
      {inLoop : Bool}
      {ending : Ending}
      {tokens : List Token}
      (counts : Derives checked (.forStatement inLoop ending) tokens) :
      Derives checked (.statement inLoop ending) tokens
  | ifIsStatement
      {inLoop : Bool}
      {ending : Ending}
      {tokens : List Token}
      (chooses : Derives checked (.ifStatement inLoop ending) tokens) :
      Derives checked (.statement inLoop ending) tokens
  | printIsStatement
      {inLoop : Bool}
      {tokens : List Token}
      (prints : Derives checked .printStatement tokens) :
      Derives checked (.statement inLoop .closed) tokens
  | whileIsStatement
      {inLoop : Bool}
      {ending : Ending}
      {tokens : List Token}
      (repeats : Derives checked (.whileStatement inLoop ending) tokens) :
      Derives checked (.statement inLoop ending) tokens
  | block
      {inLoop : Bool}
      {opening closing : Token}
      {body : List Token}
      (opens : opening.kind = .mark .leftBrace)
      (parts : Derives checked (.declarations inLoop) body)
      (closes : closing.kind = .mark .rightBrace) :
      Derives checked (.block inLoop) (opening :: (body ++ [closing]))
  | breakStatement
      {inLoop : Bool}
      {word semicolon : Token}
      (begins : word.kind = .keyword .breakWord)
      (ends : semicolon.kind = .mark .semicolon)
      (inBody : checked = true → inLoop = true) :
      Derives checked (.breakStatement inLoop) [word, semicolon]
  | expressionStatement
      {semicolon : Token}
      {tokens : List Token}
      (value : Derives checked .expression tokens)
      (ends : semicolon.kind = .mark .semicolon) :
      Derives checked .expressionStatement (tokens ++ [semicolon])
  | forStatement
      {inLoop : Bool}
      {ending : Ending}
      {word opening semicolon closing : Token}
      {initial condition step body : List Token}
      (begins : word.kind = .keyword .forWord)
      (opens : opening.kind = .mark .leftParen)
      (first : Derives checked .forInitial initial)
      (second : Derives checked .optionalExpression condition)
      (separates : semicolon.kind = .mark .semicolon)
      (third : Derives checked .optionalExpression step)
      (closes : closing.kind = .mark .rightParen)
      (repeated : Derives checked (.statement true ending) body) :
      Derives checked (.forStatement inLoop ending)
        (word :: opening ::
          (initial ++ (condition ++ semicolon :: (step ++ closing :: body))))
  | noInitial
      {semicolon : Token}
      (ends : semicolon.kind = .mark .semicolon) :
      Derives checked .forInitial [semicolon]
  | variableInitial
      {tokens : List Token}
      (declares : Derives checked .varDeclaration tokens) :
      Derives checked .forInitial tokens
  | expressionInitial
      {tokens : List Token}
      (expression : Derives checked .expressionStatement tokens) :
      Derives checked .forInitial tokens
  | ifStatement
      {inLoop : Bool}
      {ending : Ending}
      {word opening closing : Token}
      {condition thenBranch : List Token}
      (begins : word.kind = .keyword .ifWord)
      (opens : opening.kind = .mark .leftParen)
      (tested : Derives checked .expression condition)
      (closes : closing.kind = .mark .rightParen)
      (chosen : Derives checked (.statement inLoop ending) thenBranch) :
      Derives checked (.ifStatement inLoop .extensible)
        (word :: opening :: (condition ++ closing :: thenBranch))
  | ifElseStatement
      {inLoop : Bool}
      {ending : Ending}
      {word opening closing otherwise : Token}
      {condition thenBranch elseBranch : List Token}
      (begins : word.kind = .keyword .ifWord)
      (opens : opening.kind = .mark .leftParen)
      (tested : Derives checked .expression condition)
      (closes : closing.kind = .mark .rightParen)
      (chosen : Derives checked (.statement inLoop .closed) thenBranch)
      (separates : otherwise.kind = .keyword .elseWord)
      (alternative : Derives checked (.statement inLoop ending) elseBranch) :
      Derives checked (.ifStatement inLoop ending)
        (word :: opening ::
          (condition ++ closing :: (thenBranch ++ otherwise :: elseBranch)))
  | printStatement
      {word semicolon : Token}
      {tokens : List Token}
      (begins : word.kind = .keyword .printWord)
      (value : Derives checked .expression tokens)
      (ends : semicolon.kind = .mark .semicolon) :
      Derives checked .printStatement (word :: (tokens ++ [semicolon]))
  | whileStatement
      {inLoop : Bool}
      {ending : Ending}
      {word opening closing : Token}
      {condition body : List Token}
      (begins : word.kind = .keyword .whileWord)
      (opens : opening.kind = .mark .leftParen)
      (tested : Derives checked .expression condition)
      (closes : closing.kind = .mark .rightParen)
      (repeated : Derives checked (.statement true ending) body) :
      Derives checked (.whileStatement inLoop ending)
        (word :: opening :: (condition ++ closing :: body))
  | noExpression :
      Derives checked .optionalExpression []
  | someExpression
      {tokens : List Token}
      (value : Derives checked .expression tokens) :
      Derives checked .optionalExpression tokens
  | expression
      {tokens : List Token}
      (loosest : Derives checked (.operation .comma) tokens) :
      Derives checked .expression tokens
  | operand
      {level : Level}
      {tokens : List Token}
      (inner : Derives checked (.operation (tighter level)) tokens) :
      Derives checked (.operation level) tokens
  | operation
      {level : Level}
      {sign : Mark}
      {operator : Token}
      {left right : List Token}
      (earlier : Derives checked (.operation level) left)
      (listed : sign ∈ signs level)
      (signed : operator.kind = .mark sign)
      (last : Derives checked (.operation (tighter level)) right) :
      Derives checked (.operation level) (left ++ operator :: right)
  | assignment
      {equals : Token}
      {target value : List Token}
      (assigned : Derives checked (.operation .conditional) target)
      (assigns : equals.kind = .mark .equal)
      (source : Derives checked (.operation .assignment) value)
      (bare : checked = true → ∃ name, target = [name] ∧ name.kind = .identifier) :
      Derives checked (.operation .assignment) (target ++ equals :: value)
  | conditional
      {question colon : Token}
      {condition thenValue elseValue : List Token}
      (tested : Derives checked (.operation .equality) condition)
      (asks : question.kind = .mark .question)
      (chosen : Derives checked .expression thenValue)
      (separates : colon.kind = .mark .colon)
      (alternative : Derives checked (.operation .conditional) elseValue) :
      Derives checked (.operation .conditional)
        (condition ++ question :: (thenValue ++ colon :: elseValue))
  | unary
      {sign : Mark}
      {operator : Token}
      {tokens : List Token}
      (listed : sign ∈ [Mark.bang, Mark.minus])
      (signed : operator.kind = .mark sign)
      (operand : Derives checked (.operation .unary) tokens) :
      Derives checked (.operation .unary) (operator :: tokens)
  | primary
      {tokens : List Token}
      (inner : Derives checked .primary tokens) :
      Derives checked (.operation .unary) tokens
  | atom
      {token : Token}
      (alone : token.kind ∈ atoms) :
      Derives checked .primary [token]
  | group
      {opening closing : Token}
      {tokens : List Token}
      (opens : opening.kind = .mark .leftParen)
      (inner : Derives checked .expression tokens)
      (closes : closing.kind = .mark .rightParen) :
      Derives checked .primary (opening :: (tokens ++ [closing]))

end BlockScript.Grammar
