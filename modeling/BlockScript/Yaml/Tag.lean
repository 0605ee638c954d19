import BlockScript.Decimal.Nearest
import BlockScript.Yaml.Timestamp
import BlockScript.Yaml.Token

namespace BlockScript.Yaml

/-!
# Tags

A tag says of which type a node is.  A plain scalar without one has the tag that
its text suggests: nothing, a truth value, a number, a timestamp, or just text.
-/

/-- The type of a node. -/
inductive Tag where
  | null
  | bool
  | int
  | float
  | str
  | timestamp
  | binary
  | merge
  | seq
  | map
  | other (name : String)
  deriving Repr, DecidableEq

namespace Tag

/-- The name of a tag in messages. -/
def name : Tag → String
  | .null => "!!null"
  | .bool => "!!bool"
  | .int => "!!int"
  | .float => "!!float"
  | .str => "!!str"
  | .timestamp => "!!timestamp"
  | .binary => "!!binary"
  | .merge => "!!merge"
  | .seq => "!!seq"
  | .map => "!!map"
  | .other name => name

/-- The tag with the given short name. -/
def ofShortName : String → Tag
  | "!!null" => .null
  | "!!bool" => .bool
  | "!!int" => .int
  | "!!float" => .float
  | "!!str" => .str
  | "!!timestamp" => .timestamp
  | "!!binary" => .binary
  | "!!merge" => .merge
  | "!!seq" => .seq
  | "!!map" => .map
  | name => .other name

/-- What the names of the usual tags begin with, when they are written in full. -/
def usual : String := "tag:yaml.org,2002:"

/-- The tag with the given name, which may be written in full. -/
def ofName
    (name : String) :
    Tag :=
  if usual.toList.isPrefixOf name.toList then
    ofShortName ("!!" ++ String.ofList (name.toList.drop usual.length))
  else
    ofShortName name

end Tag

/-- What the text of a scalar stands for. -/
inductive Meaning where
  | null
  | truth (value : Bool)
  /-- A whole number, and whether a signed word of 64 bits can hold it. -/
  | integer (signed : Bool)
  | float
  | timestamp
  | text
  deriving Repr, DecidableEq

namespace Meaning

/-- The tag of a scalar with a meaning. -/
def tag : Meaning → Tag
  | .null => .null
  | .truth _ => .bool
  | .integer _ => .int
  | .float => .float
  | .timestamp => .timestamp
  | .text => .str

/-- The number that digits of the given base stand for; there must be at least one. -/
def natural?
    (base : Nat) :
    List Char → Option Nat
  | [] => none
  | digits =>
      digits.foldlM (fun value c => (digit? base c).map (base * value + ·)) 0

/-- A number without a sign, whose base follows from how it begins. -/
def magnitude? : List Char → Option Nat
  | '0' :: mark :: rest =>
      if mark == 'x' || mark == 'X' then natural? 16 rest
      else if mark == 'b' || mark == 'B' then natural? 2 rest
      else if mark == 'o' || mark == 'O' then natural? 8 rest
      else natural? 8 (mark :: rest)
  | digits => natural? 10 digits

/-- The least number that a signed word of 64 bits cannot hold. -/
def signedLimit : Nat := Nat.pow 2 63

/-- The least number that a word of 64 bits cannot hold. -/
def wordLimit : Nat := Nat.pow 2 64

/-- A whole number with the given sign and magnitude that fits a signed word. -/
def ofSigned?
    (negative : Bool)
    (magnitude? : Option Nat) :
    Option Meaning :=
  magnitude?.bind fun magnitude =>
    if magnitude < signedLimit || (negative && magnitude = signedLimit) then
      some (.integer true)
    else
      none

/-- A whole number that fits a word of 64 bits, signed if a sign is written. -/
def ofInteger? : List Char → Option Meaning
  | '-' :: digits => ofSigned? true (magnitude? digits)
  | '+' :: digits => ofSigned? false (magnitude? digits)
  | digits =>
      (magnitude? digits).bind fun magnitude =>
        if magnitude < wordLimit then
          some (.integer (magnitude < signedLimit))
        else
          none

/-- A whole number of the given base, behind a sign. -/
def ofSignedDigits?
    (base : Nat) :
    List Char → Option Meaning
  | '-' :: digits => ofSigned? true (natural? base digits)
  | '+' :: digits => ofSigned? false (natural? base digits)
  | _ => none

/-- A whole number whose sign stands between the mark of its base and its digits. -/
def ofInnerSign? : List Char → Option Meaning
  | '0' :: 'b' :: rest => ofSignedDigits? 2 rest
  | '0' :: 'o' :: rest => ofSignedDigits? 8 rest
  | _ => none

/-- The largest power of ten that is computed; beyond it a number is out of range or zero. -/
def largestPower : Nat := 100000

/-- The power of ten after the letter of an exponent, which may be missing altogether. -/
def power? : List Char → Option Int
  | [] => some 0
  | mark :: rest =>
      if mark == 'e' || mark == 'E' then
        match rest with
        | '-' :: digits => (natural? 10 digits).map fun power => -(min power largestPower : Nat)
        | '+' :: digits => (natural? 10 digits).map fun power => (min power largestPower : Nat)
        | digits => (natural? 10 digits).map fun power => (min power largestPower : Nat)
      else
        none

/-- Digits with a point and an exponent, either of which may be missing, and a value in range. -/
def isUnsignedFloat
    (text : List Char) :
    Bool :=
  let whole := text.takeWhile isDigit
  let (fraction, rest) :=
    match text.dropWhile isDigit with
    | '.' :: after => (after.takeWhile isDigit, after.dropWhile isDigit)
    | after => ([], after)
  if whole.isEmpty && fraction.isEmpty then
    false
  else
    match power? rest with
    | none => false
    | some power =>
        let decimal := Decimal.ofParts whole fraction
        ({ decimal with exponent := decimal.exponent + power } : Decimal).toFloat?.isSome

/-- A number with a point or an exponent, after an optional sign. -/
def isFloat : List Char → Bool
  | '-' :: rest => isUnsignedFloat rest
  | '+' :: rest => isUnsignedFloat rest
  | rest => isUnsignedFloat rest

/-- Whether every underscore stands between two digits, given whether one has come before. -/
def underscoresSeparate
    (afterDigit : Bool) :
    List Char → Bool
  | [] => true
  | ['_'] => false
  | '_' :: c :: rest => afterDigit && isDigit c && underscoresSeparate true rest
  | c :: rest => underscoresSeparate (isDigit c) rest

/-- A text without its underscores. -/
def bare
    (text : List Char) :
    List Char :=
  text.filter (· != '_')

/-- The meaning of a text that begins with a digit or a sign; underscores do not count. -/
def ofNumeric
    (dates : Bool)
    (text : List Char) :
    Meaning :=
  let bare := bare text
  if dates && Timestamp.isTimestamp text then
    .timestamp
  else
    match ofInteger? bare with
    | some meaning => meaning
    | none => if isFloat bare then .float else (ofInnerSign? bare).getD .text

/--
The meaning that a text suggests.  Timestamps are looked for only if dates are
allowed.
-/
def ofText
    (dates : Bool)
    (text : String) :
    Meaning :=
  if text ∈ ["", "~", "null", "Null", "NULL"] then .null
  else if text ∈ ["true", "True", "TRUE"] then .truth true
  else if text ∈ ["false", "False", "FALSE"] then .truth false
  else if text ∈ [".nan", ".NaN", ".NAN", ".inf", ".Inf", ".INF", "+.inf", "+.Inf", "+.INF",
      "-.inf", "-.Inf", "-.INF"] then .float
  else
    match text.toList with
    | '.' :: rest =>
        if underscoresSeparate false ('.' :: rest) && isUnsignedFloat (bare ('.' :: rest)) then
          .float
        else
          .text
    | first :: rest =>
        if isDigit first || first == '+' || first == '-' then
          ofNumeric dates (first :: rest)
        else
          .text
    | [] => .null

end Meaning

namespace Tag

/-- The tag of a scalar that was written without one. -/
def ofScalar
    (style : Style)
    (text : String) :
    Tag :=
  match style with
  | .quoted => .str
  | .plain => if text = "<<" then .merge else (Meaning.ofText true text).tag

end Tag

end BlockScript.Yaml
