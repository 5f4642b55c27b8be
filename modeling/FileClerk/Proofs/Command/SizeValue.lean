import Mathlib.Algebra.Order.Floor.Semifield
import Mathlib.Data.Rat.Floor
import FileClerk.Proofs.Command.SizeGrammar
import FileClerk.Proofs.Number.Digits
import FileClerk.Proofs.Number.WholePart

/-!
# Exact sizes and computed sizes

The size that a phrase stands for is the rational number `SizePhrase.size`, the number that is
written times the bytes of the unit. What is computed is the whole part of this number after it was
rounded to 28 digits. A larger size never gives fewer bytes (`SizePhrase.bytes_le_bytes`).

The bytes are the whole part of the exact size when rounding does not reach it
(`sizeThreshold_eq_floor_iff`): the digits of a long whole part that are rounded off are zeros, or a
short one is not rounded up to the next whole number. A size of 29 digits is the least that can be
missed without a fraction (`size_not_always_exact`).
-/

set_option autoImplicit false

namespace FileClerk.Command

open FileClerk.Text FileClerk.Number

namespace SizePhrase

/-! ## Exact sizes -/

/-- The number of a phrase as a rational: `whole` before the point and `fraction` behind it. -/
def number (p : SizePhrase) : ℚ :=
  ofDigits 10 (p.whole.filterMap digitValue?) +
    ofDigits 10 (p.fraction.filterMap digitValue?) / 10 ^ p.fraction.length

/-- The product of `number` and the bytes of the unit: what the phrase stands for, before any
rounding. -/
def size (p : SizePhrase) : ℚ := p.number * p.unit.bytes

section Values

variable {p p' : SizePhrase}

/-- The rational `number` is `digits`, read as one run, moved behind the point by the places of
`fraction`. -/
theorem number_eq (h : ∀ c ∈ p.fraction, isDigit c = true) :
    p.number = p.digits / 10 ^ p.fraction.length := by
  have hlength : (p.fraction.filterMap digitValue?).length = p.fraction.length := by
    rw [List.length_filterMap_eq_countP, List.countP_eq_length]
    exact h
  have hpos : (10 : ℚ) ^ p.fraction.length ≠ 0 := by positivity
  rw [number, digits, List.filterMap_append, ofDigits_append, hlength]
  push_cast
  field_simp

theorem size_eq (h : ∀ c ∈ p.fraction, isDigit c = true) :
    p.size = (p.digits * p.unit.bytes : ℕ) / (10 ^ p.fraction.length : ℕ) := by
  rw [size, number_eq h]
  push_cast
  ring

/-- The whole part of a size is a quotient of natural numbers. -/
theorem floor_size (h : ∀ c ∈ p.fraction, isDigit c = true) :
    ⌊p.size⌋₊ = p.digits * p.unit.bytes / 10 ^ p.fraction.length := by
  rw [size_eq h, Nat.floor_div_eq_div]

/-! ## Computed sizes -/

theorem precision_pos : 0 < precision := by decide

/-- The number `bytes` is monotone in `size`. -/
theorem bytes_le_bytes (h : ∀ c ∈ p.fraction, isDigit c = true)
    (h' : ∀ c ∈ p'.fraction, isDigit c = true) (hle : p.size ≤ p'.size) : p.bytes ≤ p'.bytes := by
  rw [size_eq h, size_eq h', div_le_div_iff₀ (by positivity) (by positivity)] at hle
  exact roundToDigits_div_le precision_pos (by exact_mod_cast hle)

/-- Rounding to `precision` digits does not reach the whole part of the size. If the whole part has
more digits, its further digits are zeros. If it does not, the distance to the next whole number is
more than half a unit of the last digit that is kept; or just half a unit, and this digit is the
last one of the whole part and even. -/
def KeepsWhole (p : SizePhrase) : Prop :=
  if ⌊p.size⌋₊ < 10 ^ precision then
    (10 : ℚ) ^ (Nat.digits 10 ⌊p.size⌋₊).length < 2 * (⌊p.size⌋₊ + 1 - p.size) * 10 ^ precision ∨
      (Nat.digits 10 ⌊p.size⌋₊).length = precision ∧ Even ⌊p.size⌋₊ ∧
        2 * (⌊p.size⌋₊ + 1 - p.size) = 1
  else 10 ^ ((Nat.digits 10 ⌊p.size⌋₊).length - precision) ∣ ⌊p.size⌋₊

/-- The distance to the next whole number in units of the last digit behind the point. -/
theorem distance_eq (h : ∀ c ∈ p.fraction, isDigit c = true) :
    (⌊p.size⌋₊ + 1 - p.size : ℚ) =
      ((⌊p.size⌋₊ + 1) * 10 ^ p.fraction.length - p.digits * p.unit.bytes : ℕ) /
        10 ^ p.fraction.length := by
  have hpos : 0 < 10 ^ p.fraction.length := Nat.pow_pos (by decide)
  have hle : p.digits * p.unit.bytes ≤ (⌊p.size⌋₊ + 1) * 10 ^ p.fraction.length := by
    rw [floor_size h, Nat.mul_comm (_ + 1)]
    exact Nat.le_of_lt (Nat.lt_mul_div_succ _ hpos)
  rw [Nat.cast_sub hle, sub_div]
  nth_rewrite 2 [size_eq h]
  push_cast
  rw [mul_div_cancel_right₀ _ (by positivity)]

/-- The equation `bytes = ⌊size⌋₊` holds exactly if the phrase `KeepsWhole`. -/
theorem bytes_eq_floor_iff (h : ∀ c ∈ p.fraction, isDigit c = true) :
    p.bytes = ⌊p.size⌋₊ ↔ p.KeepsWhole := by
  -- both sides are about the natural numbers in front of the power of ten
  rw [KeepsWhole, distance_eq h, floor_size h, bytes, scaled, Nat.pow_eq]
  generalize p.digits * p.unit.bytes = n
  generalize p.fraction.length = f
  have hpos : (0 : ℚ) < 10 ^ f := by positivity
  split
  · rename_i hshort
    rw [roundToDigits_div_eq_iff_of_lt precision_pos hshort]
    generalize (n / 10 ^ f + 1) * 10 ^ f - n = gap
    refine or_congr ?_ (and_congr_right fun _ => and_congr ?_ ?_)
    · rw [mul_div_assoc', div_mul_eq_mul_div, lt_div_iff₀ hpos, ← pow_add]
      norm_cast
    · rw [Nat.even_iff]
      omega
    · rw [mul_div_assoc', div_eq_one_iff_eq hpos.ne', eq_comm]
      norm_cast
  · rename_i hlong
    have hwhole : 0 < n / 10 ^ f :=
      Nat.lt_of_lt_of_le (Nat.pow_pos (by decide)) (Nat.not_lt.1 hlong)
    rw [roundToDigits_div_eq_iff_of_le (Nat.not_lt.1 hlong), length_digits hwhole]

/-- The test `inRange` bounds the digits of `bytes`. -/
theorem inRange_iff_bytes (p : SizePhrase) :
    p.inRange = true ↔ p.bytes < 10 ^ (maxExponent + 1) := by
  rw [inRange_iff, bytes, Nat.pow_eq, Nat.div_lt_iff_lt_mul (Nat.pow_pos (by decide)), ← pow_add]

end Values

end SizePhrase

/-! ## Thresholds -/

/-- The fraction of a phrase that is read consists of digits. -/
theorem isDigit_fraction {text : List Char} {p : SizePhrase}
    (h : firstReading? sizePhrase? none text = some p) : ∀ c ∈ p.fraction, isDigit c = true := by
  obtain ⟨front, back, -, hread⟩ := exists_of_firstReading? h
  obtain ⟨-, u, rest, -, hspelled, -⟩ := sizePhrase?_eq_some_iff.1 hread
  exact hspelled.isDigit_fraction

/-- The threshold `sizeThreshold text` is `⌊p.size⌋₊` for its first phrase `p`, exactly if that is
within range and `p.KeepsWhole`. -/
theorem sizeThreshold_eq_floor_iff {text : List Char} {p : SizePhrase}
    (h : firstReading? sizePhrase? none text = some p) :
    sizeThreshold text = .ok (some ⟨p.comparator, ⌊p.size⌋₊⟩) ↔
      ⌊p.size⌋₊ < 10 ^ (SizePhrase.maxExponent + 1) ∧ p.KeepsWhole := by
  have hiff := SizePhrase.bytes_eq_floor_iff (isDigit_fraction h)
  have hrange := p.inRange_iff_bytes
  rw [sizeThreshold, h]
  simp only [SizePhrase.threshold]
  split
  · rename_i hin
    rw [← hiff]
    simp only [Except.map, Except.ok.injEq, Option.some.injEq, Threshold.mk.injEq, true_and,
      Nat.cast_inj]
    exact ⟨fun heq => ⟨heq ▸ hrange.1 hin, heq⟩, And.right⟩
  · -- out of range there is no threshold, and the bytes are too many for the right-hand side
    rename_i hout
    rw [← hiff]
    simp only [Except.map, reduceCtorEq, false_iff, not_and]
    intro hlt heq
    exact hout (hrange.2 (heq ▸ hlt))

/-- A size with a fraction. -/
theorem sizeThreshold_eq_floor_mb :
    firstReading? sizePhrase? none "files larger than 2.5 mb".toList =
        some ⟨"larger".toList, ['2'], ['5'], .mb⟩ ∧
      (sizeThreshold "files larger than 2.5 mb".toList =
          .ok (some ⟨.greater, ⌊(⟨"larger".toList, ['2'], ['5'], .mb⟩ : SizePhrase).size⌋₊⟩) ↔
        ⌊(⟨"larger".toList, ['2'], ['5'], .mb⟩ : SizePhrase).size⌋₊ <
            10 ^ (SizePhrase.maxExponent + 1) ∧
          (⟨"larger".toList, ['2'], ['5'], .mb⟩ : SizePhrase).KeepsWhole) := by
  have hread : firstReading? sizePhrase? none "files larger than 2.5 mb".toList =
      some ⟨"larger".toList, ['2'], ['5'], .mb⟩ := by decide +kernel
  exact ⟨hread, sizeThreshold_eq_floor_iff hread⟩

/-- The size `10000000000000000000000000001 b` gives one byte less: the product is rounded to 28
digits. -/
theorem size_not_always_exact :
    ¬ ∀ (text : List Char) (p : SizePhrase), (∀ c ∈ text, c.toNat < 128) →
      firstReading? sizePhrase? none text = some p →
      sizeThreshold text = .ok (some ⟨p.comparator, ⌊p.size⌋₊⟩) := by
  intro hall
  have hexact := hall "larger than 10000000000000000000000000001 b".toList
    ⟨"larger".toList, "10000000000000000000000000001".toList, [], .b⟩ (by decide)
    (by decide +kernel)
  have hcomputed : sizeThreshold "larger than 10000000000000000000000000001 b".toList =
      .ok (some ⟨.greater, 10000000000000000000000000000⟩) := by decide +kernel
  have hfloor : ⌊(⟨"larger".toList, "10000000000000000000000000001".toList, [], .b⟩ :
      SizePhrase).size⌋₊ = 10000000000000000000000000001 := by
    rw [SizePhrase.floor_size (by simp)]
    decide +kernel
  rw [hcomputed, hfloor] at hexact
  simp at hexact

end FileClerk.Command
