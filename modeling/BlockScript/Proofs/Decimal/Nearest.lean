import Mathlib
import BlockScript.Decimal.Shortest

namespace BlockScript

/-!
# Doubles are nearest to themselves

The double nearest to a fraction depends on its value alone, not on how it is
written, and a fraction that is a double is rounded to that double.  Whatever decimal
is chosen as the shortest one for a double is therefore rounded to the double again.
-/

namespace Double

/-- Rounding a quotient does not depend on a common factor. -/
theorem roundHalfEven_mul
    {factor : Nat}
    (positive : 0 < factor)
    (numerator denominator : Nat) :
    roundHalfEven (factor * numerator) (factor * denominator) =
      roundHalfEven numerator denominator := by
  have scaled : ∀ rest : Nat, 2 * (factor * rest) = factor * (2 * rest) := by
    intro rest
    rw [Nat.mul_left_comm]
  have less : ∀ a b : Nat, factor * a < factor * b ↔ a < b :=
    fun a b => Nat.mul_lt_mul_left positive
  have equal : ∀ a b : Nat, (factor * a == factor * b) = (a == b) := by
    intro a b
    rw [Bool.eq_iff_iff, beq_iff_eq, beq_iff_eq, Nat.mul_right_inj positive.ne']
  unfold roundHalfEven
  simp only [Nat.mul_div_mul_left _ _ positive, Nat.mul_mod_mul_left, scaled, less, equal]

/-- The nearest double does not depend on a common factor. -/
theorem nearestBits_mul
    {factor : Nat}
    (positive : 0 < factor)
    (numerator denominator : Nat) :
    nearestBits (factor * numerator) (factor * denominator) =
      nearestBits numerator denominator := by
  unfold nearestBits scaleOf
  dsimp only
  rw [Nat.mul_assoc, Nat.mul_div_mul_left _ _ positive, Nat.mul_assoc, roundHalfEven_mul positive]

/-- Equal fractions have the same nearest double. -/
theorem nearestBits_congr
    {numerator denominator other divisor : Nat}
    (positive : 0 < denominator)
    (divisorPositive : 0 < divisor)
    (same : numerator * divisor = other * denominator) :
    nearestBits numerator denominator = nearestBits other divisor := by
  rw [← nearestBits_mul divisorPositive, ← nearestBits_mul positive other, Nat.mul_comm divisor,
    Nat.mul_comm denominator other, same, Nat.mul_comm denominator]

/-- A quotient without a rest is not rounded. -/
theorem roundHalfEven_mul_right
    {denominator : Nat}
    (positive : 0 < denominator)
    (quotient : Nat) :
    roundHalfEven (quotient * denominator) denominator = quotient := by
  have notZero : (0 == denominator) = false := by simpa using positive.ne
  simp [roundHalfEven, Nat.mul_div_cancel _ positive, notZero]

/-- The mantissa of a double beyond the smallest scale has its leading bit. -/
theorem mantissa_bounds
    {bits : Nat}
    (scaled : scale bits ≠ 0) :
    2 ^ mantissaBits ≤ mantissa bits ∧ mantissa bits < 2 ^ (mantissaBits + 1) := by
  have split := Nat.div_add_mod bits (2 ^ mantissaBits)
  have rest := Nat.mod_lt bits (Nat.two_pow_pos mantissaBits)
  unfold scale at scaled
  unfold mantissa scale
  rw [Nat.pow_eq] at scaled ⊢
  generalize bits / 2 ^ mantissaBits = quotient at *
  generalize bits % 2 ^ mantissaBits = remainder at *
  obtain ⟨further, rfl⟩ : ∃ further, quotient = further + 2 := ⟨quotient - 2, by omega⟩
  rw [Nat.pow_succ, ← split, Nat.mul_comm (2 ^ mantissaBits)]
  have whole :
      (further + 2) * 2 ^ mantissaBits =
        (further + 2 - 1) * 2 ^ mantissaBits + 2 ^ mantissaBits := by
    rw [Nat.add_sub_assoc (by omega), ← Nat.succ_mul]
  omega

/-- The mantissa of a double of the smallest scale is its bit pattern. -/
theorem lt_of_scale_eq_zero
    {bits : Nat}
    (unscaled : scale bits = 0) :
    bits < 2 ^ (mantissaBits + 1) := by
  unfold scale at unscaled
  rw [Nat.pow_eq] at unscaled
  rw [Nat.pow_succ, Nat.mul_comm]
  exact (Nat.div_lt_iff_lt_mul (Nat.two_pow_pos mantissaBits)).mp (by omega)

/-- The scale of a double is found again from its magnitude. -/
theorem log2_unitsOf
    (bits : Nat) :
    (unitsOf bits).log2 - mantissaBits = scale bits := by
  unfold unitsOf
  rw [Nat.pow_eq]
  -- Doubles of the smallest scale need not have the leading bit, and zero has no bit at all.
  by_cases unscaled : scale bits = 0
  · have fits := lt_of_scale_eq_zero unscaled
    have whole : mantissa bits = bits := by simp [mantissa, unscaled]
    rw [unscaled, whole, Nat.pow_zero, Nat.mul_one]
    by_cases isZero : bits = 0
    · simp [isZero]
    · have small := (Nat.log2_lt isZero).mpr fits
      omega
  · obtain ⟨lower, upper⟩ := mantissa_bounds unscaled
    have notZero : mantissa bits * 2 ^ scale bits ≠ 0 := by
      have positive := Nat.two_pow_pos mantissaBits
      exact Nat.mul_ne_zero (by omega) (Nat.two_pow_pos _).ne'
    have leading : (mantissa bits * 2 ^ scale bits).log2 = mantissaBits + scale bits := by
      rw [Nat.log2_eq_iff notZero, Nat.pow_add, Nat.add_right_comm, Nat.pow_add]
      exact ⟨Nat.mul_le_mul_right _ lower, Nat.mul_lt_mul_of_pos_right upper (Nat.two_pow_pos _)⟩
    omega

/-- A double is the one nearest to its own magnitude. -/
theorem nearestBits_unitsOf
    (bits : Nat) :
    nearestBits (unitsOf bits) (2 ^ smallestExponent) = bits := by
  have unit : 0 < 2 ^ smallestExponent := Nat.two_pow_pos _
  have sameScale : scaleOf (unitsOf bits) (2 ^ smallestExponent) = scale bits := by
    rw [scaleOf, Nat.pow_eq, Nat.mul_div_cancel _ unit, log2_unitsOf]
  have exactly :
      roundHalfEven (unitsOf bits * 2 ^ smallestExponent)
          (2 ^ smallestExponent * 2 ^ scale bits) = mantissa bits := by
    rw [unitsOf, Nat.pow_eq, Nat.mul_assoc, Nat.mul_comm (2 ^ scale bits)]
    exact roundHalfEven_mul_right (Nat.mul_pos unit (Nat.two_pow_pos _)) _
  have below : scale bits * 2 ^ mantissaBits ≤ bits := by
    unfold scale
    rw [Nat.pow_eq]
    exact (Nat.mul_le_mul_right _ (Nat.sub_le _ _)).trans (Nat.div_mul_le_self _ _)
  rw [nearestBits, sameScale]
  simp only [Nat.pow_eq]
  rw [exactly, mantissa, Nat.pow_eq, Nat.add_sub_cancel' below]

end Double

namespace Decimal

/-- There is a power of ten below the fraction line. -/
theorem denominator_pos
    (decimal : Decimal) :
    0 < decimal.denominator :=
  Nat.pow_pos (by decide)

/-- Equal magnitudes have the same nearest double. -/
theorem nearestBits_congr
    {decimal other : Decimal}
    (same : decimal.numerator * other.denominator = other.numerator * decimal.denominator) :
    decimal.nearestBits = other.nearestBits :=
  Double.nearestBits_congr decimal.denominator_pos other.denominator_pos same

/-- The digits of a double are its units in tenths of twos. -/
theorem digits_exact
    (bits : Nat) :
    (exact bits).digits = Double.unitsOf bits * 5 ^ Double.smallestExponent := by
  rw [exact, Nat.pow_eq]

/-- The digits of a double are counted in one small power of ten. -/
theorem exponent_exact
    (bits : Nat) :
    (exact bits).exponent = -(Double.smallestExponent : Int) := by
  rw [exact]

/-- A power of ten is a power of five and a power of two. -/
theorem ten_pow
    (exponent : Nat) :
    10 ^ exponent = 5 ^ exponent * 2 ^ exponent :=
  Nat.mul_pow 5 2 exponent

/-- Every digit of a double together is rounded to the double. -/
theorem nearestBits_exact
    (bits : Nat) :
    (exact bits).nearestBits = bits := by
  have top : (exact bits).numerator = Double.unitsOf bits * 5 ^ Double.smallestExponent := by
    rw [numerator, digits_exact, exponent_exact, Int.toNat_neg_natCast, Nat.pow_eq, Nat.pow_zero,
      Nat.mul_one]
  have bottom : (exact bits).denominator = 10 ^ Double.smallestExponent := by
    rw [denominator, exponent_exact, Int.neg_neg, Int.toNat_natCast, Nat.pow_eq]
  have same :
      (exact bits).numerator * 2 ^ Double.smallestExponent =
        Double.unitsOf bits * (exact bits).denominator := by
    rw [top, bottom, ten_pow, Nat.mul_assoc]
  rw [nearestBits,
    Double.nearestBits_congr (exact bits).denominator_pos (Nat.two_pow_pos _) same,
    Double.nearestBits_unitsOf]

/-- Whichever of two decimals is chosen is rounded to the double. -/
theorem nearestBits_of_firstRoundingTo?
    {bits : Nat}
    {nearer farther decimal : Decimal}
    (found : firstRoundingTo? bits nearer farther = some decimal) :
    decimal.nearestBits = bits := by
  unfold firstRoundingTo? at found
  split at found
  · rename_i reads
    cases found
    exact reads
  · split at found
    · rename_i reads
      cases found
      exact reads
    · cases found

/-- The shortest decimal of a double is rounded to the double. -/
theorem nearestBits_shortest
    (bits : Nat) :
    (shortest bits).nearestBits = bits := by
  unfold shortest
  split
  · rename_i isZero
    rw [isZero]
    decide +kernel
  · dsimp only
    generalize leadingExponent _ _ = leading
    cases tried : (List.range mostDigits).findSome? fun fewer =>
        withDigits? bits leading (fewer + 1) with
    | none => exact nearestBits_exact bits
    | some decimal =>
        obtain ⟨fewer, _, found⟩ := List.exists_of_findSome?_eq_some tried
        exact nearestBits_of_firstRoundingTo? found

end Decimal

end BlockScript
