import Mathlib.Data.List.Lex
import Mathlib.Order.RelClasses
import BlockScript.Execution.Operation

namespace BlockScript

/-!
# Texts are ordered by their code points

Texts are compared by their octets in UTF-8.  The first octet of a character tells
how many follow, and the longer sequences begin with the larger octets; the octets
of two characters of one length hold the digits of their code points to the base
sixty-four.  A smaller character is therefore written with smaller octets, whatever
follows it, and comparing octets is comparing code points.
-/

namespace Text

/-- The code points of the characters of a text. -/
def codePoints
    (text : String) :
    List Nat :=
  text.toList.map Char.toNat

/-- The octets of a text are those of its characters, one after the other. -/
theorem octets_eq_flatMap
    (text : String) :
    octets text = text.toList.flatMap String.utf8EncodeChar := by
  rw [octets, String.toUTF8, ← String.utf8Encode_toList, List.utf8Encode,
    List.data_toByteArray]

/-- Octets are compared by their values, and what follows equal ones decides. -/
theorem cons_octet_lt_iff
    {first second : Nat}
    (firstFits : first < 256)
    (secondFits : second < 256)
    {rest others : List UInt8} :
    UInt8.ofNat first :: rest < UInt8.ofNat second :: others ↔
      first < second ∨ first = second ∧ rest < others := by
  rw [List.cons_lt_cons_iff, UInt8.lt_iff_toNat_lt, ← UInt8.toNat_inj,
    UInt8.toNat_ofNat_of_lt' firstFits, UInt8.toNat_ofNat_of_lt' secondFits]

/-- The digits of a code point to the base sixty-four are those of its quotients. -/
theorem div_octets
    (code : Nat) :
    code / 4096 = code / 64 / 64 ∧ code / 262144 = code / 64 / 64 / 64 := by
  simp only [Nat.div_div_eq_div_mul, Nat.reduceMul, and_self]

/-- A smaller character is written with smaller octets, whatever follows. -/
theorem utf8EncodeChar_append_lt
    {c d : Char}
    (less : c.toNat < d.toNat)
    (rest others : List UInt8) :
    String.utf8EncodeChar c ++ rest < String.utf8EncodeChar d ++ others := by
  have bounded : d.val.toNat < 0x110000 := d.valid.elim (by omega) (·.2)
  simp only [Char.toNat] at less
  unfold String.utf8EncodeChar
  dsimp only
  -- Longer sequences begin with larger octets; in sequences of one length the first octet
  -- that differs is the larger one for the larger code point.
  split_ifs
  all_goals
    simp (disch := omega) only [List.cons_append, div_octets, cons_octet_lt_iff]
    omega

/-- A common beginning decides nothing. -/
theorem append_lt_append_iff
    {α : Type}
    [LT α]
    [irreflexive : Std.Irrefl fun first second : α => first < second]
    (front left right : List α) :
    front ++ left < front ++ right ↔ left < right := by
  induction front with
  | nil =>
      rfl
  | cons first front inductionHypothesis =>
      rw [List.cons_append, List.cons_append, List.cons_lt_cons_iff, inductionHypothesis]
      simp [irreflexive.irrefl first]

/-- Octets of characters are ordered as the code points of the characters. -/
theorem flatMap_utf8EncodeChar_lt_iff
    (left right : List Char) :
    left.flatMap String.utf8EncodeChar < right.flatMap String.utf8EncodeChar ↔
      left.map Char.toNat < right.map Char.toNat := by
  induction left generalizing right with
  | nil =>
      cases right with
      | nil => simp
      | cons d right =>
          obtain ⟨first, rest, written⟩ :=
            List.exists_cons_of_ne_nil (String.utf8EncodeChar_ne_nil (c := d))
          simp [written]
  | cons c left inductionHypothesis =>
      cases right with
      | nil => simp
      | cons d right =>
          simp only [List.flatMap_cons, List.map_cons, List.cons_lt_cons_iff]
          rcases Nat.lt_trichotomy c.toNat d.toNat with less | same | greater
          · exact iff_of_true (utf8EncodeChar_append_lt less _ _) (.inl less)
          · rw [Char.toNat_inj.mp same, append_lt_append_iff, inductionHypothesis]
            simp
          · refine iff_of_false (List.lt_asymm (utf8EncodeChar_append_lt greater _ _)) ?_
            omega

/-- One text comes before another as its code points do. -/
theorem comesBefore_eq
    (left right : String) :
    comesBefore left right = decide (codePoints left < codePoints right) := by
  rw [Bool.eq_iff_iff, decide_eq_true_iff, comesBefore, List.lex_eq_true_iff_lt,
    octets_eq_flatMap, octets_eq_flatMap, flatMap_utf8EncodeChar_lt_iff]
  rfl

/-- A text is determined by its code points. -/
theorem codePoints_inj
    {left right : String} :
    codePoints left = codePoints right ↔ left = right := by
  rw [codePoints, codePoints,
    (List.map_injective_iff.mpr fun _ _ => Char.toNat_inj.mp).eq_iff, String.toList_inj]

/-- The code points of a text behind another follow those of that one. -/
theorem codePoints_append
    (front text : String) :
    codePoints (front ++ text) = codePoints front ++ codePoints text := by
  simp [codePoints]

end Text

open Text

/-- Applied to two texts, an operator gives the value true. -/
def BinaryOperator.HoldsOfTexts
    (operator : BinaryOperator)
    (left right : String) :
    Prop :=
  operator.apply (.string left) (.string right) = .ok (.bool true)

namespace BinaryOperator

/-- The operators that compare texts compare their code points. -/
theorem apply_texts
    (left right : String) :
    less.apply (.string left) (.string right) =
        .ok (.bool (codePoints left < codePoints right)) ∧
      lessEqual.apply (.string left) (.string right) =
          .ok (.bool (codePoints left ≤ codePoints right)) ∧
        greater.apply (.string left) (.string right) =
            .ok (.bool (codePoints right < codePoints left)) ∧
          greaterEqual.apply (.string left) (.string right) =
            .ok (.bool (codePoints right ≤ codePoints left)) := by
  simp only [apply, Comparison.apply, Comparison.holdsOfTexts, comesBefore_eq, ← not_lt,
    decide_not, and_self]

section Texts

variable {left right : String}

/-- A text is less than another when its code points are. -/
theorem less_holdsOfTexts_iff :
    less.HoldsOfTexts left right ↔ codePoints left < codePoints right := by
  simp [HoldsOfTexts, apply_texts]

/-- A text is at most another when its code points are. -/
theorem lessEqual_holdsOfTexts_iff :
    lessEqual.HoldsOfTexts left right ↔ codePoints left ≤ codePoints right := by
  simp [HoldsOfTexts, apply_texts]

/-- A text is greater than another when its code points are. -/
theorem greater_holdsOfTexts_iff :
    greater.HoldsOfTexts left right ↔ codePoints right < codePoints left := by
  simp [HoldsOfTexts, apply_texts]

/-- Texts are equal when their code points are. -/
theorem equal_holdsOfTexts_iff :
    equal.HoldsOfTexts left right ↔ codePoints left = codePoints right := by
  simp [HoldsOfTexts, apply, Value.equals, codePoints_inj]

end Texts

/-- At most is a total order of texts. -/
theorem isLinearOrder_lessEqual :
    IsLinearOrder String lessEqual.HoldsOfTexts where
  refl text :=
    lessEqual_holdsOfTexts_iff.mpr (le_refl _)
  trans first second third before behind := by
    rw [lessEqual_holdsOfTexts_iff] at before behind ⊢
    exact le_trans before behind
  antisymm left right before behind := by
    rw [lessEqual_holdsOfTexts_iff] at before behind
    exact codePoints_inj.mp (le_antisymm before behind)
  total left right := by
    rw [lessEqual_holdsOfTexts_iff, lessEqual_holdsOfTexts_iff]
    exact le_total _ _

/-- Exactly one of less, equal and greater holds of two texts. -/
theorem existsUnique_holdsOfTexts
    (left right : String) :
    ∃! operator, operator ∈ [less, equal, greater] ∧ operator.HoldsOfTexts left right := by
  have others :
      ∀ {operator : BinaryOperator},
        (less.HoldsOfTexts left right → less = operator) →
          (equal.HoldsOfTexts left right → equal = operator) →
            (greater.HoldsOfTexts left right → greater = operator) →
              ∀ other, other ∈ [less, equal, greater] ∧ other.HoldsOfTexts left right →
                other = operator := by
    rintro operator isLess isEqual isGreater other ⟨isListed, holds⟩
    simp only [List.mem_cons, List.not_mem_nil, or_false] at isListed
    rcases isListed with rfl | rfl | rfl
    · exact isLess holds
    · exact isEqual holds
    · exact isGreater holds
  simp only [less_holdsOfTexts_iff, equal_holdsOfTexts_iff, greater_holdsOfTexts_iff] at others
  rcases lt_trichotomy (codePoints left) (codePoints right) with before | same | behind
  · refine ⟨less, ⟨by simp, less_holdsOfTexts_iff.mpr before⟩, others ?_ ?_ ?_⟩
    · exact fun _ => rfl
    · exact fun same => absurd same before.ne
    · exact fun behind => absurd behind (lt_asymm before)
  · refine ⟨equal, ⟨by simp, equal_holdsOfTexts_iff.mpr same⟩, others ?_ ?_ ?_⟩
    · exact fun before => absurd same before.ne
    · exact fun _ => rfl
    · exact fun behind => absurd same.symm behind.ne
  · refine ⟨greater, ⟨by simp, greater_holdsOfTexts_iff.mpr behind⟩, others ?_ ?_ ?_⟩
    · exact fun before => absurd before (lt_asymm behind)
    · exact fun same => absurd same.symm behind.ne
    · exact fun _ => rfl

/--
Texts are compared by their code points, from the left.  Comparing is a total order of
texts, exactly one of less, equal and greater holds of two texts, and what both texts
begin with does not matter.
-/
theorem texts_compare_by_codePoints :
    (∀ left right : String,
      less.apply (.string left) (.string right) =
          .ok (.bool (codePoints left < codePoints right)) ∧
        lessEqual.apply (.string left) (.string right) =
            .ok (.bool (codePoints left ≤ codePoints right)) ∧
          greater.apply (.string left) (.string right) =
              .ok (.bool (codePoints right < codePoints left)) ∧
            greaterEqual.apply (.string left) (.string right) =
              .ok (.bool (codePoints right ≤ codePoints left))) ∧
      IsLinearOrder String lessEqual.HoldsOfTexts ∧
        (∀ left right : String,
          ∃! operator, operator ∈ [less, equal, greater] ∧ operator.HoldsOfTexts left right) ∧
          ∀ front left right : String,
            ∀ operator ∈ [less, lessEqual, greater, greaterEqual],
              operator.apply (.string (front ++ left)) (.string (front ++ right)) =
                operator.apply (.string left) (.string right) := by
  refine ⟨apply_texts, isLinearOrder_lessEqual, existsUnique_holdsOfTexts, ?_⟩
  intro front left right operator isListed
  have sameOrder :
      ∀ first second : String,
        codePoints (front ++ first) < codePoints (front ++ second) ↔
          codePoints first < codePoints second := by
    intro first second
    rw [codePoints_append, codePoints_append, append_lt_append_iff]
  simp only [List.mem_cons, List.not_mem_nil, or_false] at isListed
  rcases isListed with rfl | rfl | rfl | rfl
  · simp only [apply_texts, sameOrder]
  · simp only [apply_texts, ← not_lt, sameOrder]
  · simp only [apply_texts, sameOrder]
  · simp only [apply_texts, ← not_lt, sameOrder]

/-- The last code point of three octets comes before those of four, also behind a letter. -/
theorem texts_compare_by_codePoints_threeOctets :
    less ∈ [less, lessEqual, greater, greaterEqual] ∧
      codePoints "\uffff" < codePoints "😀" ∧
        less.apply (.string ("é" ++ "\uffff")) (.string ("é" ++ "😀")) = .ok (.bool true) := by
  have isListed : less ∈ [less, lessEqual, greater, greaterEqual] := by decide
  have before : codePoints "\uffff" < codePoints "😀" := by decide +kernel
  obtain ⟨byCodePoints, _, _, sameFront⟩ := texts_compare_by_codePoints
  refine ⟨isListed, before, ?_⟩
  rw [sameFront "é" "\uffff" "😀" less isListed, (byCodePoints "\uffff" "😀").1, decide_eq_true before]

end BinaryOperator

end BlockScript
