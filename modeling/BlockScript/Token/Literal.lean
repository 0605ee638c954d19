import BlockScript.Token.Basic
import BlockScript.Text.Quoted

namespace BlockScript

/-!
# Literal values

The value that a token carries is a function of its kind and its text: a string
without its quotes, and the double nearest to a written number.
-/

/-- Why a text has no value as a literal. -/
inductive LiteralFault where
  | notQuoted (lexeme : String)
  | notNumeric (lexeme : String)
  | malformedNumber (lexeme : String)
  | outOfRange (lexeme : String)
  deriving Repr, DecidableEq

namespace LiteralFault

/-- The message for a text without a value. -/
def message : LiteralFault → String
  | .notQuoted lexeme => "invalid string literal " ++ Text.quote lexeme
  | .notNumeric lexeme => "invalid number literal " ++ Text.quote lexeme
  | .malformedNumber lexeme =>
      "strconv.ParseFloat: parsing " ++ Text.quote lexeme ++ ": invalid syntax"
  | .outOfRange lexeme =>
      "strconv.ParseFloat: parsing " ++ Text.quote lexeme ++ ": value out of range"

end LiteralFault

namespace Literal

/-- A text without its quotes. -/
def ofQuoted
    (lexeme : String) :
    Except LiteralFault Value :=
  match lexeme.toList with
  | '"' :: afterQuote =>
      if afterQuote.getLast? = some '"' then
        .ok (.string (String.ofList afterQuote.dropLast))
      else
        .error (.notQuoted lexeme)
  | _ => .error (.notQuoted lexeme)

/-- Digits and points, with a digit at both ends; no characters at all qualify too. -/
def isNumeric
    (text : List Char) :
    Bool :=
  text.all (fun c => isDigit c || c == '.') && text.head? != some '.' && text.getLast? != some '.'

/-- The value of a written number, by the double nearest to it if there is one. -/
def ofRounded
    (lexeme : String) :
    Option Float → Except LiteralFault Value
  | some number => .ok (.number number)
  | none => .error (.outOfRange lexeme)

/-- The double nearest to a written number. -/
def ofNumeric
    (lexeme : String) :
    Except LiteralFault Value :=
  if isNumeric lexeme.toList then
    match Decimal.ofText? lexeme.toList with
    | none => .error (.malformedNumber lexeme)
    | some decimal => ofRounded lexeme decimal.toFloat?
  else
    .error (.notNumeric lexeme)

/-- The value that a token of the given kind and text carries. -/
def ofLexeme
    (kind : Kind)
    (lexeme : String) :
    Except LiteralFault Value :=
  match kind with
  | .string => ofQuoted lexeme
  | .number => ofNumeric lexeme
  | .mark _ | .identifier | .keyword _ | .endOfInput => .ok .nil

end Literal

end BlockScript
