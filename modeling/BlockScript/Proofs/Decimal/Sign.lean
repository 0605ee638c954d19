import Mathlib
import BlockScript.Decimal.Nearest

namespace BlockScript.Double

open Float.Model
open Float.Model.UnpackedFloat hiding unpack pack

/-!
# The sign of a double

A double is packed from a sign bit, an exponent and a mantissa, and its magnitude is the
pattern of the last two.  A finite double is therefore its magnitude with the sign put back:
without the sign bit it is the magnitude itself, and with it the negation of the magnitude,
negative zero included.
-/

/-- The bits of a double, packed from their three parts. -/
abbrev packed
    (sign : UnpackedFloat.Sign)
    (exponent : BitVec 11)
    (mantissa : BitVec 52) :
    BitVec 64 :=
  packComponents .binary64 sign exponent mantissa

/-- The parts of a packed double stand one after the other. -/
theorem toNat_packed
    (sign : UnpackedFloat.Sign)
    (exponent : BitVec 11)
    (mantissa : BitVec 52) :
    (packed sign exponent mantissa).toNat =
      sign.toBitVec.toNat * 2 ^ 63 + (exponent.toNat * 2 ^ 52 + mantissa.toNat) := by
  have exponentBound := exponent.isLt
  have mantissaBound := mantissa.isLt
  rw [packed, packComponents, BitVec.toNat_append, BitVec.toNat_append,
    ← Nat.shiftLeft_add_eq_or_of_lt exponentBound, ← Nat.shiftLeft_add_eq_or_of_lt mantissaBound]
  simp only [Nat.shiftLeft_eq]
  omega

/-- Every double is packed from three parts. -/
theorem exists_packed
    (number : Float) :
    ∃ sign exponent mantissa, number.toBits.toBitVec = packed sign exponent mantissa :=
  ⟨_, _, _, (@packComponents_unpackSign_unpackExponent_unpackMantissa .binary64 _).symm⟩

/-- Negating a double changes its sign and nothing else. -/
theorem neg_unpack_packed
    (sign : UnpackedFloat.Sign)
    (exponent : BitVec 11)
    (mantissa : BitVec 52) :
    (UnpackedFloat.unpack .binary64 (packed sign exponent mantissa)).neg =
      UnpackedFloat.unpack .binary64 (packed (-sign) exponent mantissa) := by
  simp only [UnpackedFloat.unpack, unpackMantissa_packComponents, unpackExponent_packComponents,
    unpackSign_packComponents, Sign.ofBitVec_toBitVec]
  split
  · split <;> rfl
  · split
    · split <;> rfl
    · rfl

/-- A double is finite when not all bits of its exponent are set. -/
theorem isFinite_unpack_packed
    (sign : UnpackedFloat.Sign)
    (exponent : BitVec 11)
    (mantissa : BitVec 52) :
    (UnpackedFloat.unpack .binary64 (packed sign exponent mantissa)).isFinite = true ↔
      exponent ≠ -1#11 := by
  simp only [UnpackedFloat.unpack, unpackMantissa_packComponents, unpackExponent_packComponents]
  split
  · rename_i allOnes
    split <;> simp [UnpackedFloat.isFinite, allOnes]
  · rename_i finite
    split
    · split <;> simpa [UnpackedFloat.isFinite] using finite
    · simpa [UnpackedFloat.isFinite] using finite

/-- A pattern whose exponent is not all set is kept when it is unpacked and packed again. -/
theorem pack_unpack_packed
    (sign : UnpackedFloat.Sign)
    {exponent : BitVec 11}
    (mantissa : BitVec 52)
    (notAllOnes : exponent ≠ -1#11) :
    UnpackedFloat.pack .binary64 (UnpackedFloat.unpack .binary64 (packed sign exponent mantissa)) =
      packed sign exponent mantissa := by
  have notNaN : @isNaNBits .binary64 (packed sign exponent mantissa) ≠ true := by
    intro isNaN
    rw [isNaNBits, unpackExponent_packComponents] at isNaN
    exact notAllOnes (of_decide_eq_true isNaN).1
  rw [pack_unpack, if_neg notNaN]

section Parts

variable
  {number : Float}
  {sign : UnpackedFloat.Sign}
  {exponent : BitVec 11}
  {mantissa : BitVec 52}

/-- The magnitude of a double is packed from its exponent and its mantissa. -/
theorem magnitudeBits_of_packed
    (parts : number.toBits.toBitVec = packed sign exponent mantissa) :
    magnitudeBits number = exponent.toNat * 2 ^ 52 + mantissa.toNat := by
  have exponentBound := exponent.isLt
  have mantissaBound := mantissa.isLt
  rw [magnitudeBits, Nat.pow_eq, ← UInt64.toNat_toBitVec, parts, toNat_packed]
  omega

/-- A double is negative when its sign is. -/
theorem isNegative_of_packed
    (parts : number.toBits.toBitVec = packed sign exponent mantissa) :
    isNegative number = true ↔ sign = .negative := by
  have exponentBound := exponent.isLt
  have mantissaBound := mantissa.isLt
  rw [isNegative, Nat.pow_eq, decide_eq_true_iff, ← UInt64.toNat_toBitVec, parts, toNat_packed]
  cases sign with
  | negative => simp [Sign.toBitVec]
  | positive => simp [Sign.toBitVec]; omega

/-- A magnitude is packed without a sign. -/
theorem toBitVec_magnitudeBits
    (parts : number.toBits.toBitVec = packed sign exponent mantissa) :
    (magnitudeBits number).toUInt64.toBitVec = packed .positive exponent mantissa := by
  have exponentBound := exponent.isLt
  have mantissaBound := mantissa.isLt
  rw [magnitudeBits_of_packed parts]
  apply BitVec.eq_of_toNat_eq
  rw [toNat_packed, UInt64.toNat_toBitVec, Nat.toUInt64_eq, UInt64.toNat_ofNat']
  simp [Sign.toBitVec]
  omega

/-- The exponent of a finite double is not all set. -/
theorem exponent_ne_of_isFinite
    (parts : number.toBits.toBitVec = packed sign exponent mantissa)
    (finite : number.isFinite = true) :
    exponent ≠ -1#11 := by
  rw [← isFinite_unpack_packed sign exponent mantissa, ← parts]
  exact finite

/-- A finite pattern is that of a double. -/
theorem toBits_ofBits
    {bits : UInt64}
    (parts : bits.toBitVec = packed sign exponent mantissa)
    (notAllOnes : exponent ≠ -1#11) :
    (Float.ofBits bits).toBits = bits := by
  rw [← UInt64.toBitVec_inj, parts, ← pack_unpack_packed sign mantissa notAllOnes, ← parts]
  rfl

/-- The negation of a finite double has the other sign. -/
theorem toBits_neg
    (parts : number.toBits.toBitVec = packed sign exponent mantissa)
    (notAllOnes : exponent ≠ -1#11) :
    (-number).toBits.toBitVec = packed (-sign) exponent mantissa := by
  rw [← pack_unpack_packed (-sign) mantissa notAllOnes, ← neg_unpack_packed, ← parts]
  rfl

end Parts

/-- The magnitude of a finite double is below infinity. -/
theorem magnitudeBits_lt_infinityBits
    {number : Float}
    (finite : number.isFinite = true) :
    magnitudeBits number < infinityBits := by
  obtain ⟨sign, exponent, mantissa, parts⟩ := exists_packed number
  have notTop : exponent.toNat ≠ 2047 := by
    intro top
    exact exponent_ne_of_isFinite parts finite (BitVec.eq_of_toNat_eq top)
  have exponentBound := exponent.isLt
  have mantissaBound := mantissa.isLt
  rw [magnitudeBits_of_packed parts, infinityBits, mantissaBits, Nat.pow_eq]
  omega

/-- A double without a sign is its own magnitude. -/
theorem ofMagnitudeBits_magnitudeBits
    {number : Float}
    (unsigned : isNegative number = false) :
    ofMagnitudeBits (magnitudeBits number) = number := by
  obtain ⟨sign, exponent, mantissa, parts⟩ := exists_packed number
  have positive : sign = .positive := by
    cases sign with
    | positive => rfl
    | negative => simp [(isNegative_of_packed parts).mpr rfl] at unsigned
  have same : (magnitudeBits number).toUInt64 = number.toBits := by
    rw [← UInt64.toBitVec_inj, toBitVec_magnitudeBits parts, parts, positive]
  rw [ofMagnitudeBits, same, Float.ofBits_toBits]

/-- A finite double with a sign is the negation of its magnitude. -/
theorem neg_ofMagnitudeBits_magnitudeBits
    {number : Float}
    (finite : number.isFinite = true)
    (signed : isNegative number = true) :
    -ofMagnitudeBits (magnitudeBits number) = number := by
  obtain ⟨sign, exponent, mantissa, parts⟩ := exists_packed number
  have notAllOnes := exponent_ne_of_isFinite parts finite
  have magnitude := toBitVec_magnitudeBits parts
  rw [← toBits_ofBits magnitude notAllOnes] at magnitude
  rw [← Float.toBits_inj, ← UInt64.toBitVec_inj, ofMagnitudeBits, toBits_neg magnitude notAllOnes,
    parts, (isNegative_of_packed parts).mp signed]
  rfl

/-- A pattern below infinity is packed without a sign from an exponent that is not all set. -/
theorem exists_packed_of_lt_infinityBits
    {bits : Nat}
    (finite : bits < infinityBits) :
    ∃ exponent mantissa,
      bits.toUInt64.toBitVec = packed .positive exponent mantissa ∧ exponent ≠ -1#11 := by
  rw [infinityBits, mantissaBits, Nat.pow_eq] at finite
  refine ⟨BitVec.ofNat 11 (bits / 2 ^ 52), BitVec.ofNat 52 bits, ?_, ?_⟩
  · apply BitVec.eq_of_toNat_eq
    rw [toNat_packed, UInt64.toNat_toBitVec, Nat.toUInt64_eq, UInt64.toNat_ofNat']
    simp [Sign.toBitVec]
    omega
  · intro allOnes
    have top := congrArg BitVec.toNat allOnes
    simp at top
    omega

/-- A pattern below infinity is the magnitude of the double that it makes, which has no sign. -/
theorem magnitudeBits_ofMagnitudeBits
    {bits : Nat}
    (finite : bits < infinityBits) :
    magnitudeBits (ofMagnitudeBits bits) = bits ∧ isNegative (ofMagnitudeBits bits) = false := by
  obtain ⟨exponent, mantissa, parts, notAllOnes⟩ := exists_packed_of_lt_infinityBits finite
  have same := toBits_ofBits parts notAllOnes
  rw [infinityBits, mantissaBits, Nat.pow_eq] at finite
  have small : bits < 2 ^ 63 := by omega
  have word : bits.toUInt64.toNat = bits := by
    rw [Nat.toUInt64_eq, UInt64.toNat_ofNat', Nat.mod_eq_of_lt (by omega)]
  rw [magnitudeBits, isNegative, ofMagnitudeBits, same, word, Nat.pow_eq]
  exact ⟨Nat.mod_eq_of_lt small, decide_eq_false (Nat.not_le_of_lt small)⟩

end BlockScript.Double
