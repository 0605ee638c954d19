import Mathlib.Tactic.Ring
import BlockScript.Decimal.Basic
import BlockScript.Text.Quoted

namespace BlockScript.Text.Quoted

/-!
# Quoted text reads back

How a character is written between quotes can be read back without knowing what follows:
an escape says by its letter how many digits it has, and every other character stands for
itself.  No character is written with a bare quote in front, so that the closing quote of a
text is found as well, and what is quoted is determined by the quoted text.
-/

/-- The value of hexadecimal digits behind those of a greater value, the most significant first. -/
def hexValue
    (value : Nat)
    (digits : List Char) :
    Nat :=
  digits.foldl (fun value c => 16 * value + (digit? 16 c).getD 0) value

/-- The character that a letter behind a backslash stands for. -/
def unescape : Char → Char
  | 'a' => '\x07'
  | 'b' => '\x08'
  | 'f' => '\x0c'
  | 'n' => '\n'
  | 'r' => '\r'
  | 't' => '\t'
  | 'v' => '\x0b'
  | c => c

/-- The character whose code point is written with the given number of digits, and what follows. -/
def ofHex
    (width : Nat)
    (text : List Char) :
    Char × List Char :=
  (Char.ofNat (hexValue 0 (text.take width)), text.drop width)

/-- The character that an escape stands for, and what follows it. -/
def decodeEscape : List Char → Option (Char × List Char)
  | 'x' :: rest => some (ofHex 2 rest)
  | 'u' :: rest => some (ofHex 4 rest)
  | 'U' :: rest => some (ofHex 8 rest)
  | letter :: rest => some (unescape letter, rest)
  | [] => none

/-- The first character of a text between quotes, and what follows it. -/
def decodeChar : List Char → Option (Char × List Char)
  | c :: rest => if c = '\\' then decodeEscape rest else some (c, rest)
  | [] => none

/-- A hexadecimal digit has the value that it was written for. -/
theorem digit?_hexDigit
    (value : Nat) :
    digit? 16 (hexDigit value) = some (value % 16) := by
  have small : ∀ digit < 16, digit? 16 (Nat.digitChar digit) = some digit := by decide
  exact small (value % 16) (Nat.mod_lt value (by decide))

/-- One more digit is put in front. -/
theorem hex_succ
    (width value : Nat) :
    hex (width + 1) value = hexDigit (value >>> (4 * width)) :: hex width value := by
  simp [hex, List.range_succ]

/-- Hexadecimal digits give back what they were written for, up to their width. -/
theorem hexValue_hex
    (before width value : Nat) :
    hexValue before (hex width value) = before * 16 ^ width + value % 16 ^ width := by
  induction width generalizing before with
  | zero =>
      simp [hex, hexValue, Nat.mod_one]
  | succ width inductionHypothesis =>
      have leading : value >>> (4 * width) % 16 = value / 16 ^ width % 16 := by
        rw [Nat.shiftRight_eq_div_pow, Nat.pow_mul]
      rw [hex_succ, hexValue, List.foldl_cons, digit?_hexDigit, Option.getD_some, leading]
      change hexValue _ (hex width value) = _
      rw [inductionHypothesis, Nat.pow_succ, Nat.mod_mul]
      ring

/-- A number has as many hexadecimal digits as it is given. -/
theorem length_hex
    (width value : Nat) :
    (hex width value).length = width := by
  simp [hex]

/-- An escape by code point is read back when its digits are enough. -/
theorem ofHex_hex
    {width : Nat}
    {c : Char}
    (fits : c.toNat < 16 ^ width)
    (rest : List Char) :
    ofHex width (hex width c.toNat ++ rest) = (c, rest) := by
  rw [ofHex, List.take_left' (length_hex width _), List.drop_left' (length_hex width _),
    hexValue_hex, Nat.mod_eq_of_lt fits, Nat.zero_mul, Nat.zero_add, Char.ofNat_toNat]

/-- How a character is written between quotes is read back, whatever follows. -/
theorem decodeChar_encodeChar
    (c : Char)
    (rest : List Char) :
    decodeChar (encodeChar c ++ rest) = some (c, rest) := by
  unfold encodeChar
  split
  case h_10 notQuote notBackslash _ _ _ _ _ _ _ =>
    split
    · exact if_neg notBackslash
    · unfold codePoint
      split
      · rename_i small
        exact congrArg some (ofHex_hex (by omega) rest)
      · split
        · rename_i small
          exact congrArg some (ofHex_hex (by omega) rest)
        · exact congrArg some (ofHex_hex c.val.toNat_lt rest)
  all_goals rfl

/-- A character between quotes is never written with a bare quote in front. -/
theorem head?_encodeChar
    (c : Char)
    (rest : List Char) :
    (encodeChar c ++ rest).head? ≠ some '"' := by
  unfold encodeChar
  split
  case h_10 notQuote _ _ _ _ _ _ _ _ =>
    split
    · simpa using notQuote
    · unfold codePoint
      split
      · simp
      · split <;> simp
  all_goals simp

/-- What stands between quotes, and what follows the closing quote, is determined. -/
theorem encode_append_quote_inj
    {text other rest behind : List Char}
    (same : encode text ++ '"' :: rest = encode other ++ '"' :: behind) :
    text = other ∧ rest = behind := by
  induction text generalizing other with
  | nil =>
      cases other with
      | nil => exact ⟨rfl, (List.cons.inj same).2⟩
      | cons d others =>
          have heads := congrArg List.head? same
          simp only [encode, List.flatMap_cons, List.append_assoc] at heads
          exact absurd heads.symm (head?_encodeChar d _)
  | cons c text inductionHypothesis =>
      cases other with
      | nil =>
          have heads := congrArg List.head? same
          simp only [encode, List.flatMap_cons, List.append_assoc] at heads
          exact absurd heads (head?_encodeChar c _)
      | cons d others =>
          -- Reading one character off both sides gives the character and the rest at once.
          have decoded := congrArg decodeChar same
          simp only [encode, List.flatMap_cons, List.append_assoc, decodeChar_encodeChar,
            Option.some.injEq, Prod.mk.injEq] at decoded
          obtain ⟨rfl, sameRest⟩ := decoded
          obtain ⟨rfl, sameBehind⟩ := inductionHypothesis sameRest
          exact ⟨rfl, sameBehind⟩

end BlockScript.Text.Quoted
