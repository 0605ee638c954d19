import BlockScript.Text.Printable

namespace BlockScript.Text

/-!
# Quoted text

Quoted text stands between double quotes.  A quote and a backslash inside it
are escaped, the usual controls have one-letter escapes, and every other
character that is not printable is written by its code point in hexadecimal.
-/

namespace Quoted

/-- One lower-case hexadecimal digit. -/
def hexDigit
    (value : Nat) :
    Char :=
  Nat.digitChar (value % 16)

/-- The last `width` hexadecimal digits of a number. -/
def hex
    (width value : Nat) :
    List Char :=
  (List.range width).reverse.map fun place => hexDigit (value >>> (4 * place))

/-- The escape of a character by its code point, as short as its size allows. -/
def codePoint
    (c : Char) :
    List Char :=
  if c.toNat < 0x80 then
    '\\' :: 'x' :: hex 2 c.toNat
  else if c.toNat < 0x10000 then
    '\\' :: 'u' :: hex 4 c.toNat
  else
    '\\' :: 'U' :: hex 8 c.toNat

/-- How one character is written between the quotes. -/
def encodeChar
    (c : Char) :
    List Char :=
  match c with
  | '"' => ['\\', '"']
  | '\\' => ['\\', '\\']
  | '\x07' => ['\\', 'a']
  | '\x08' => ['\\', 'b']
  | '\x0c' => ['\\', 'f']
  | '\n' => ['\\', 'n']
  | '\r' => ['\\', 'r']
  | '\t' => ['\\', 't']
  | '\x0b' => ['\\', 'v']
  | _ => if isPrintable c then [c] else codePoint c

/-- The characters of a text as they are written between the quotes. -/
def encode
    (text : List Char) :
    List Char :=
  text.flatMap encodeChar

end Quoted

/-- A text between double quotes, with everything escaped that does not stand for itself. -/
def quote
    (text : String) :
    String :=
  String.ofList ('"' :: Quoted.encode text.toList ++ ['"'])

end BlockScript.Text
