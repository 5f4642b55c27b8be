import FileClerk.Command.SizePhrase
import FileClerk.Proofs.Number.Rounding
import FileClerk.Proofs.Text.CharClass
import FileClerk.Proofs.Text.Piece

/-!
# Sizes within range

A threshold fails in one way: the first size phrase of the text stands for a size that has, after
rounding, more digits before the point than are allowed (`sizeThreshold_eq_error_iff`). The whole
part of a size phrase is a run of digits of the text, and a unit adds ten digits at most, so a text
of short numbers has no such phrase (`not_sizeTooLarge_of_shortNumbers`).
-/

set_option autoImplicit false

namespace FileClerk.Command

open FileClerk.Text FileClerk.Number

/-! ## Where a phrase stands -/

theorem afterLetters_suffix {word s rest : List Char} (h : afterLetters word s = some rest) :
    rest <:+ s := by
  obtain ⟨u, rfl, -⟩ := afterLetters_eq_some_iff.1 h
  exact List.suffix_append u rest

theorem afterBlanks?_suffix {s rest : List Char} (h : afterBlanks? s = some rest) : rest <:+ s := by
  unfold afterBlanks? at h
  split at h
  · cases h
    exact List.dropWhile_suffix isBlank
  · cases h

theorem takeWord?_suffix {words : List String} {s word rest : List Char}
    (h : takeWord? words s = some (word, rest)) : rest <:+ s := by
  obtain ⟨w, -, hw⟩ := List.exists_of_findSome?_eq_some h
  obtain ⟨rest', hrest, heq⟩ := Option.map_eq_some_iff.1 hw
  cases heq
  exact afterLetters_suffix hrest

/-- The part `p.whole` is a run of digits of the text. -/
theorem sizePhrase?_whole {before : Option Char} {s : List Char} {p : SizePhrase}
    (h : sizePhrase? before s = some p) :
    p.whole <:+: s ∧ ∀ c ∈ p.whole, isDigit c = true := by
  unfold sizePhrase? at h
  split at h
  · cases h
  · simp only [Option.bind_eq_bind, Option.bind_eq_some_iff, Prod.exists] at h
    obtain ⟨word, s₁, hword, s₂, hblanks, s₃, hthan, s₄, hblanks', h⟩ := h
    split at h
    · cases h
    · simp only [Option.bind_eq_some_iff] at h
      obtain ⟨unit, -, hp⟩ := h
      cases hp
      -- each reader leaves a suffix of what it was given
      have hsuffix : s₄ <:+ s :=
        (afterBlanks?_suffix hblanks').trans <| (afterLetters_suffix hthan).trans <|
          (afterBlanks?_suffix hblanks).trans (takeWord?_suffix hword)
      refine ⟨(List.takeWhile_prefix isDigit).isInfix.trans hsuffix.isInfix, ?_⟩
      intro c hc
      exact List.mem_takeWhile_imp hc

/-! ## The range of sizes -/

/-- A digit of any script is worth nine at most. -/
theorem digitValue?_lt {c : Char} {d : Nat} (h : digitValue? c = some d) : d < 10 := by
  by_cases hascii : c.toNat < 128
  · have hall : ∀ d ∈ digitValue? c, d < 10 :=
      forall_ascii (P := fun c => ∀ d ∈ digitValue? c, d < 10) (by decide) hascii
    exact hall d h
  · rw [digitValue?, if_neg hascii] at h
    obtain ⟨start, -, hstart⟩ := List.exists_of_findSome?_eq_some h
    split at hstart
    · rename_i hle
      simp only [Bool.and_eq_true, decide_eq_true_eq] at hle
      cases hstart
      omega
    · cases hstart

namespace SizePhrase

/-- The number `p.digits` has as many decimal digits as are written, at most. -/
theorem digits_lt (p : SizePhrase) : p.digits < 10 ^ (p.whole.length + p.fraction.length) := by
  have hvalues : ∀ d ∈ (p.whole ++ p.fraction).filterMap digitValue?, d < 10 := by
    intro d hd
    obtain ⟨c, -, hc⟩ := List.mem_filterMap.1 hd
    exact digitValue?_lt hc
  calc p.digits < 10 ^ ((p.whole ++ p.fraction).filterMap digitValue?).length := ofDigits_lt hvalues
    _ ≤ 10 ^ (p.whole.length + p.fraction.length) := by
        apply Nat.pow_le_pow_right (by decide)
        rw [← List.length_append]
        exact List.length_filterMap_le _ _

/-- Twice a unit is below the tenth power of ten. -/
theorem two_mul_bytes_lt (unit : SizeUnit) : 2 * unit.bytes < 10 ^ 10 := by
  cases unit with
  | gb => decide
  | mb => decide
  | kb => decide
  | b => decide

/-- The number `p.scaled` has ten digits more than the number that is written, at most. -/
theorem scaled_lt (p : SizePhrase) :
    p.scaled < 10 ^ (p.whole.length + p.fraction.length + 10) := by
  -- rounding doubles the product at most, and twice a unit has ten digits
  have hunit := two_mul_bytes_lt p.unit
  have hpos : 0 < 10 ^ 10 := by decide
  calc p.scaled ≤ 2 * (p.digits * p.unit.bytes) := roundToDigits_le (by decide) _
    _ = p.digits * (2 * p.unit.bytes) := by
        rw [Nat.mul_left_comm]
    _ ≤ p.digits * 10 ^ 10 := Nat.mul_le_mul_left _ (Nat.le_of_lt hunit)
    _ < 10 ^ (p.whole.length + p.fraction.length) * 10 ^ 10 :=
        Nat.mul_lt_mul_of_pos_right p.digits_lt hpos
    _ = 10 ^ (p.whole.length + p.fraction.length + 10) := (Nat.pow_add _ _ _).symm

/-- The test `p.inRange` holds when the size has at most `maxExponent + 1` digits before the point.
-/
theorem inRange_iff (p : SizePhrase) :
    p.inRange = true ↔ p.scaled < 10 ^ (maxExponent + 1 + p.fraction.length) := by
  rw [inRange, decide_eq_true_eq]
  exact digitCount_le_iff (by omega) p.scaled

theorem inRange_of_length {p : SizePhrase} (h : p.whole.length + 10 ≤ maxExponent + 1) :
    p.inRange = true := by
  rw [inRange_iff]
  calc p.scaled < 10 ^ (p.whole.length + p.fraction.length + 10) := p.scaled_lt
    _ ≤ 10 ^ (maxExponent + 1 + p.fraction.length) :=
        Nat.pow_le_pow_right (by decide) (by omega)

end SizePhrase

/-! ## Thresholds -/

/-- The first size phrase of the text has a size beyond range: rounded to its leading digits it has
more than `maxExponent + 1` digits before the point. -/
def SizeTooLarge (text : List Char) : Prop :=
  ∃ p, firstReading? sizePhrase? none text = some p ∧
    10 ^ (SizePhrase.maxExponent + 1 + p.fraction.length) ≤ p.scaled

/-- The reader `sizeThreshold` fails exactly if the text is `SizeTooLarge`, and then with
`sizeOutOfRange`. -/
theorem sizeThreshold_eq_error_iff (text : List Char) (fault : CommandFault) :
    sizeThreshold text = .error fault ↔ fault = .sizeOutOfRange ∧ SizeTooLarge text := by
  unfold sizeThreshold SizeTooLarge
  cases hfirst : firstReading? sizePhrase? none text with
  | none => simp
  | some p =>
      have hrange := p.inRange_iff
      by_cases hin : p.inRange = true
      · have hlt := hrange.1 hin
        simp [SizePhrase.threshold, hin, Except.map, Nat.not_le.2 hlt]
      · have hle : 10 ^ (SizePhrase.maxExponent + 1 + p.fraction.length) ≤ p.scaled :=
          Nat.not_lt.1 fun hlt => hin (hrange.2 hlt)
        simp [SizePhrase.threshold, hin, Except.map, hle, eq_comm]

/-- The reader `sizeThreshold` finds a threshold when `sizePhrase?` reads something in the text. -/
theorem isSome_of_sizeThreshold {text : List Char} {threshold : Option Threshold}
    (h : sizeThreshold text = .ok threshold) :
    threshold.isSome = true ↔ ∃ p, firstReading? sizePhrase? none text = some p := by
  unfold sizeThreshold at h
  cases hfirst : firstReading? sizePhrase? none text with
  | none =>
      rw [hfirst] at h
      cases h
      simp
  | some p =>
      rw [hfirst] at h
      simp only [SizePhrase.threshold] at h
      split at h
      · cases h
        simp
      · cases h

/-- A text whose numbers have fewer than 900000 digits is not `SizeTooLarge`. -/
theorem not_sizeTooLarge_of_shortNumbers {text : List Char} (h : ShortNumbers 900000 text) :
    ¬ SizeTooLarge text := by
  rintro ⟨p, hfirst, hle⟩
  obtain ⟨front, back, rfl, hread⟩ := exists_of_firstReading? hfirst
  obtain ⟨hinside, hdigits⟩ := sizePhrase?_whole hread
  have hshort := h p.whole (hinside.trans (List.suffix_append front back).isInfix) hdigits
  have hrange : p.inRange = true := by
    apply SizePhrase.inRange_of_length
    rw [SizePhrase.maxExponent]
    omega
  exact Nat.not_lt.2 hle (p.inRange_iff.1 hrange)

end FileClerk.Command
