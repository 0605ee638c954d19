import BlockScript.Proofs.Decimal.Nearest
import BlockScript.Proofs.Decimal.Sign
import BlockScript.Proofs.Source.Literals

namespace BlockScript

/-!
# Numbers read back as they are written

A decimal is written as one or two runs of digits, and its digits give back its magnitude.
The text of a finite number without a sign is therefore the lexeme of a number, with the
number itself as its value.
-/

namespace Decimal

/-- The value of a run of digits is read from its characters. -/
theorem valueOfDigits_eq
    (digits : List Char) :
    valueOfDigits digits = Nat.ofDigitChars 10 digits 0 :=
  rfl

/-- The digits of a number give back the number. -/
theorem valueOfDigits_digitsOf
    (value : Nat) :
    valueOfDigits (digitsOf value) = value :=
  Nat.ofDigitChars_toDigits (by decide) (by decide)

/-- Zeros behind digits multiply their value by powers of ten. -/
theorem valueOfDigits_append_zeros
    (digits : List Char)
    (zeros : Nat) :
    valueOfDigits (digits ++ List.replicate zeros '0') = valueOfDigits digits * 10 ^ zeros := by
  rw [valueOfDigits_eq, Nat.ofDigitChars_append, Nat.ofDigitChars_replicate_zero, Nat.mul_comm,
    valueOfDigits_eq]

/-- Zeros in front of digits do not change their value. -/
theorem valueOfDigits_zeros_append
    (zeros : Nat)
    (digits : List Char) :
    valueOfDigits (List.replicate zeros '0' ++ digits) = valueOfDigits digits := by
  rw [valueOfDigits_eq, Nat.ofDigitChars_append, Nat.ofDigitChars_replicate_zero, Nat.mul_zero,
    valueOfDigits_eq]

end Decimal

namespace Lexical

/-- The digits of a number are digits. -/
theorem isDigits_digitsOf
    (value : Nat) :
    IsDigits (Decimal.digitsOf value) := by
  refine ⟨List.ne_nil_of_length_pos Nat.length_toDigits_pos, fun c isDigitOf => ?_⟩
  have found := Nat.isDigit_of_mem_toDigits (by decide) (by decide) isDigitOf
  simpa [isDigit, Char.isDigit, Char.le_def] using found

/-- Zeros are digits. -/
theorem isDigit_of_mem_zeros
    {zeros : Nat}
    {c : Char}
    (isZero : c ∈ List.replicate zeros '0') :
    isDigit c = true := by
  rw [List.eq_of_mem_replicate isZero]
  decide

/-- Digits with zeros behind them stand for the same magnitude as a positive exponent. -/
theorem nearestBits_zeros
    (digits zeros : Nat) :
    (Decimal.ofParts (Decimal.digitsOf digits ++ List.replicate zeros '0') []).nearestBits =
      Decimal.nearestBits { digits, exponent := Int.ofNat zeros } := by
  apply Decimal.nearestBits_congr
  rw [Decimal.ofParts, List.append_nil, Decimal.valueOfDigits_append_zeros,
    Decimal.valueOfDigits_digitsOf]
  simp [Decimal.numerator, Decimal.denominator]

/-- A decimal with places behind its point is written with as many digits there. -/
theorem denotes_places
    (digits below : Nat) :
    Denotes (Decimal.plainText { digits, exponent := .negSucc below })
      { digits, exponent := .negSucc below } := by
  let zeros := List.replicate (below + 2 - (Decimal.digitsOf digits).length) '0'
  let padded := zeros ++ Decimal.digitsOf digits
  have value : Decimal.valueOfDigits padded = digits := by
    rw [Decimal.valueOfDigits_zeros_append, Decimal.valueOfDigits_digitsOf]
  have long : below + 2 ≤ padded.length := by
    simp only [padded, zeros, List.length_append, List.length_replicate]
    omega
  have all : ∀ c ∈ padded, isDigit c = true := by
    rw [List.forall_mem_append]
    exact ⟨fun _ => isDigit_of_mem_zeros, (isDigits_digitsOf digits).2⟩
  have whole : IsDigits (padded.take (padded.length - (below + 1))) := by
    refine ⟨List.ne_nil_of_length_pos ?_, fun c isTaken => all c (List.mem_of_mem_take isTaken)⟩
    rw [List.length_take]
    omega
  have places : (padded.drop (padded.length - (below + 1))).length = below + 1 := by
    rw [List.length_drop]
    omega
  have part : IsDigits (padded.drop (padded.length - (below + 1))) := by
    refine ⟨List.ne_nil_of_length_pos ?_, fun c isDropped => all c (List.mem_of_mem_drop isDropped)⟩
    omega
  have same :
      Decimal.ofParts (padded.take (padded.length - (below + 1)))
          (padded.drop (padded.length - (below + 1))) =
        { digits, exponent := .negSucc below } := by
    rw [Decimal.ofParts, List.take_append_drop, value, places]
    rfl
  have written := Denotes.fractional whole part
  rw [same] at written
  exact written

/-- A decimal is written so that its text has the same nearest double. -/
theorem exists_denotes_plainText
    (decimal : Decimal) :
    ∃ read, Denotes decimal.plainText read ∧ read.nearestBits = decimal.nearestBits := by
  obtain ⟨digits, exponent⟩ := decimal
  cases exponent with
  | ofNat zeros =>
      have whole : IsDigits (Decimal.digitsOf digits ++ List.replicate zeros '0') := by
        refine ⟨List.append_ne_nil_of_left_ne_nil (isDigits_digitsOf digits).1 _, ?_⟩
        rw [List.forall_mem_append]
        exact ⟨(isDigits_digitsOf digits).2, fun _ => isDigit_of_mem_zeros⟩
      exact ⟨_, .whole whole, nearestBits_zeros digits zeros⟩
  | negSucc below => exact ⟨_, denotes_places digits below, rfl⟩

/-- The shortest decimal of a finite double is written so that its text denotes the double. -/
theorem exists_denotes_shortest
    {bits : Nat}
    (finite : bits < Double.infinityBits) :
    ∃ read,
      Denotes (Decimal.shortest bits).plainText read ∧
        read.toFloat? = some (Double.ofMagnitudeBits bits) := by
  obtain ⟨read, denotes, sameBits⟩ := exists_denotes_plainText (Decimal.shortest bits)
  refine ⟨read, denotes, ?_⟩
  rw [Decimal.toFloat?, sameBits, Decimal.nearestBits_shortest, if_pos finite]

/-- Runs of digits are cut as one number before anything that does not go on with them. -/
theorem Denotes.firstSegment
    {text rest : List Char}
    {read : Decimal}
    {number : Float}
    (denotes : Denotes text read)
    (rounded : read.toFloat? = some number)
    (ends : ∀ c ∈ rest.head?, c ≠ '.' ∧ isDigit c = false) :
    FirstSegment { text, role := .token .number (.number number) } rest := by
  have longest : StopsAt isDigit rest := fun c isNext => (ends c isNext).2
  cases denotes with
  | whole whole =>
      have noFraction : ∀ others, rest = '.' :: others → StopsAt isDigit others := by
        rintro others rfl
        exact absurd rfl (ends '.' rfl).1
      have first := FirstSegment.wholeNumber whole longest noFraction
      rwa [rounded] at first
  | fractional whole part =>
      have first := FirstSegment.fractionalNumber whole part longest
      rwa [rounded] at first

/-- Runs of digits hold no line feed. -/
theorem Denotes.noLineFeed
    {text : List Char}
    {read : Decimal}
    (denotes : Denotes text read) :
    '\n' ∉ text := by
  have notDigit : ∀ {digits : List Char}, IsDigits digits → '\n' ∉ digits := by
    intro digits isDigits isIn
    exact absurd (isDigits.2 _ isIn) (by decide)
  cases denotes with
  | whole whole => exact notDigit whole
  | fractional whole part =>
      simp [notDigit whole, notDigit part]

end Lexical

namespace Numeral

open Lexical

/-- A finite number is written by its magnitude, with a minus sign in front if it has one. -/
theorem text_of_lt_infinityBits
    {number : Float}
    (finite : Double.magnitudeBits number < Double.infinityBits) :
    text .plain number =
      String.ofList
        ((if Double.isNegative number then ['-'] else []) ++
          (Decimal.shortest (Double.magnitudeBits number)).plainText) := by
  have notAbove : ¬Double.infinityBits < Double.magnitudeBits number := by omega
  simp only [text, if_neg notAbove, if_neg finite.ne, decimalText, Layout.plain]
  split <;> rfl

/-- The text of a magnitude is the lexeme of a number with that value. -/
theorem isLexeme_text
    {bits : Nat}
    (finite : bits < Double.infinityBits) :
    let value : Value := .number (Double.ofMagnitudeBits bits)
    IsLexeme .number value.text.toList ∧ Literal.ofLexeme .number value.text = .ok value := by
  obtain ⟨sameBits, unsigned⟩ := Double.magnitudeBits_ofMagnitudeBits finite
  obtain ⟨read, denotes, rounded⟩ := exists_denotes_shortest finite
  have below : Double.magnitudeBits (Double.ofMagnitudeBits bits) < Double.infinityBits := by
    rwa [sameBits]
  have written := text_of_lt_infinityBits below
  rw [sameBits, unsigned] at written
  simp only [Value.text, written]
  simpa using denotes.isLexeme rounded

end Numeral

end BlockScript
