import BlockScript.Value

namespace BlockScript

/-!
# Tokens

A token is a piece of source text with its kind, the value it carries and the
line on which it ends.  Kinds are the punctuation marks, the reserved words, the
three open classes of names, texts and numbers, and the end of the input.
-/

/-- A punctuation mark or an operator sign. -/
inductive Mark where
  | leftParen
  | rightParen
  | leftBrace
  | rightBrace
  | comma
  | dot
  | minus
  | plus
  | semicolon
  | slash
  | star
  | question
  | colon
  | bang
  | bangEqual
  | equal
  | equalEqual
  | greater
  | greaterEqual
  | less
  | lessEqual
  deriving Repr, DecidableEq

namespace Mark

/-- Every mark, in the order of its number. -/
def all : List Mark :=
  [.leftParen, .rightParen, .leftBrace, .rightBrace, .comma, .dot, .minus, .plus, .semicolon,
    .slash, .star, .question, .colon, .bang, .bangEqual, .equal, .equalEqual, .greater,
    .greaterEqual, .less, .lessEqual]

/-- The characters of a mark. -/
def spelling : Mark → String
  | .leftParen => "("
  | .rightParen => ")"
  | .leftBrace => "\x7b"
  | .rightBrace => "\x7d"
  | .comma => ","
  | .dot => "."
  | .minus => "-"
  | .plus => "+"
  | .semicolon => ";"
  | .slash => "/"
  | .star => "*"
  | .question => "?"
  | .colon => ":"
  | .bang => "!"
  | .bangEqual => "!="
  | .equal => "="
  | .equalEqual => "=="
  | .greater => ">"
  | .greaterEqual => ">="
  | .less => "<"
  | .lessEqual => "<="

end Mark

/-- A reserved word. -/
inductive Keyword where
  | andWord
  | breakWord
  | classWord
  | elseWord
  | falseWord
  | funWord
  | forWord
  | ifWord
  | nilWord
  | orWord
  | printWord
  | returnWord
  | superWord
  | thisWord
  | trueWord
  | varWord
  | whileWord
  deriving Repr, DecidableEq

namespace Keyword

/-- Every reserved word, in the order of its number. -/
def all : List Keyword :=
  [.andWord, .breakWord, .classWord, .elseWord, .falseWord, .funWord, .forWord, .ifWord, .nilWord,
    .orWord, .printWord, .returnWord, .superWord, .thisWord, .trueWord, .varWord, .whileWord]

/-- The characters of a reserved word. -/
def spelling : Keyword → String
  | .andWord => "and"
  | .breakWord => "break"
  | .classWord => "class"
  | .elseWord => "else"
  | .falseWord => "false"
  | .funWord => "fun"
  | .forWord => "for"
  | .ifWord => "if"
  | .nilWord => "nil"
  | .orWord => "or"
  | .printWord => "print"
  | .returnWord => "return"
  | .superWord => "super"
  | .thisWord => "this"
  | .trueWord => "true"
  | .varWord => "var"
  | .whileWord => "while"

/-- The name of a reserved word in a listing of tokens: its spelling in capitals. -/
def name : Keyword → String
  | .andWord => "AND"
  | .breakWord => "BREAK"
  | .classWord => "CLASS"
  | .elseWord => "ELSE"
  | .falseWord => "FALSE"
  | .funWord => "FUN"
  | .forWord => "FOR"
  | .ifWord => "IF"
  | .nilWord => "NIL"
  | .orWord => "OR"
  | .printWord => "PRINT"
  | .returnWord => "RETURN"
  | .superWord => "SUPER"
  | .thisWord => "THIS"
  | .trueWord => "TRUE"
  | .varWord => "VAR"
  | .whileWord => "WHILE"

/-- The reserved word with the given spelling. -/
def ofSpelling?
    (spelling : String) :
    Option Keyword :=
  all.find? (·.spelling == spelling)

end Keyword

/-- The kind of a token. -/
inductive Kind where
  | mark (sign : Mark)
  | identifier
  | string
  | number
  | keyword (word : Keyword)
  | endOfInput
  deriving Repr, DecidableEq

namespace Kind

/-- Every kind, in the order of its number. -/
def all : List Kind :=
  Mark.all.map .mark ++ [.identifier, .string, .number] ++ Keyword.all.map .keyword ++
    [.endOfInput]

/-- The name of a kind in a listing of tokens; a mark is its own name. -/
def name : Kind → String
  | .mark sign => sign.spelling
  | .identifier => "IDENTIFIER"
  | .string => "STRING"
  | .number => "NUMBER"
  | .keyword word => word.name
  | .endOfInput => "EOF"

/-- The kind with the given name. -/
def ofName?
    (name : String) :
    Option Kind :=
  all.find? (·.name == name)

/-- The number of a kind: its place among all kinds. -/
def toNumber
    (kind : Kind) :
    Nat :=
  all.idxOf kind

/-- The name of the kind with the given number; beyond the last kind the number is shown. -/
def nameOfNumber
    (number : Nat) :
    String :=
  match all[number]? with
  | some kind => kind.name
  | none => "TokenType(" ++ Nat.repr number ++ ")"

end Kind

/-- A piece of source text; `literal` is `nil` for a token that carries no value. -/
structure Token where
  kind : Kind
  lexeme : String
  literal : Value
  line : Int
  deriving Repr, DecidableEq

namespace Token

/-- The line of a token in a listing: its kind, its text and the value it carries. -/
def listed
    (token : Token) :
    String :=
  token.kind.name ++ " " ++ token.lexeme ++ " " ++ token.literal.listed

end Token

end BlockScript
