import Mathlib.Data.Nat.Digits.Lemmas
import FileClerk.Proofs.Number.RoundingOrder

/-!
# Whole parts of rounded fractions

A decimal fraction `n / 10 ^ f` is rounded to leading digits and then cut off at the point. When
does this give the whole part of the fraction itself? A whole part that is longer than the digits
that are kept is given exactly when its further digits are zero (`roundToDigits_div_eq_iff_of_le`).
A shorter one is lost only if the fraction is rounded up to the next whole number, that is, if the
distance to that number is less than half a unit of the last digit that is kept, or just half a unit
and the tie is broken upwards (`roundToDigits_div_eq_iff_of_lt`).
-/

set_option autoImplicit false

namespace FileClerk.Number

variable {digits : Nat}

/-! ## Digits of whole parts -/

theorem digitCount_of_le {n : Nat} (h : 10 ≤ n) : digitCount n = digitCount (n / 10) + 1 := by
  conv_lhs => unfold digitCount
  rw [if_neg (Nat.not_lt.2 h)]

theorem length_digits {n : Nat} (hn : 0 < n) : (Nat.digits 10 n).length = digitCount n := by
  -- both drop the last digit until one is left
  induction n using Nat.strong_induction_on with
  | _ n ih =>
      rw [Nat.digits_def' (by decide) hn, List.length_cons]
      by_cases hten : n < 10
      · rw [Nat.div_eq_of_lt hten, Nat.digits_zero, digitCount, if_pos hten]
        rfl
      · rw [ih (n / 10) (by omega) (by omega), ← digitCount_of_le (by omega)]

/-- The digits behind the point come on top of those of the whole part `n / 10 ^ f`. -/
theorem digitCount_div_pow {n f : Nat} (h : 0 < n / 10 ^ f) :
    digitCount n = digitCount (n / 10 ^ f) + f := by
  induction f generalizing n with
  | zero => rw [Nat.pow_zero, Nat.div_one, Nat.add_zero]
  | succ f ih =>
      rw [Nat.pow_succ', ← Nat.div_div_eq_div_mul] at h ⊢
      have hten : 10 ≤ n := by
        by_contra hlt
        rw [Nat.div_eq_of_lt (Nat.not_le.1 hlt), Nat.zero_div] at h
        exact Nat.lt_irrefl 0 h
      rw [digitCount_of_le hten, ih h, Nat.add_assoc]

/-- A fraction has as many digits as its whole part and the places behind the point together, unless
it is less than a tenth. -/
theorem digitCount_eq_or_lt (n f : Nat) :
    digitCount n = (Nat.digits 10 (n / 10 ^ f)).length + f ∨ 10 * n < 10 ^ f := by
  rcases Nat.eq_zero_or_pos (n / 10 ^ f) with hzero | hwhole
  · rw [hzero, Nat.digits_zero, List.length_nil, Nat.zero_add]
    have hlt : n < 10 ^ f := by
      rw [Nat.div_eq_zero_iff] at hzero
      exact hzero.resolve_left (Nat.pow_pos (by decide)).ne'
    cases f with
    | zero =>
        rw [Nat.pow_zero] at hlt ⊢
        omega
    | succ f =>
        rw [Nat.pow_succ'] at hlt
        rcases Nat.lt_or_ge n (10 ^ f) with hsmall | hlarge
        · rw [Nat.pow_succ']
          omega
        · -- the leading digit is the first one behind the point
          refine Or.inl (Nat.le_antisymm ?_ ?_)
          · rwa [digitCount_le_iff (Nat.succ_pos f), Nat.pow_succ']
          · rcases Nat.eq_zero_or_pos f with rfl | hf
            · exact digitCount_pos n
            · by_contra hless
              have := (digitCount_le_iff hf n).1 (by omega)
              omega
  · rw [length_digits hwhole]
    exact Or.inl (digitCount_div_pow hwhole)

/-! ## Long whole parts -/

/-- A whole part `n / 10 ^ f` of more than `digits` digits is kept when all of its digits behind the
leading ones are zero. -/
theorem roundToDigits_div_eq_iff_of_le {n f : Nat} (hlong : 10 ^ digits ≤ n / 10 ^ f) :
    roundToDigits digits n / 10 ^ f = n / 10 ^ f ↔
      10 ^ (digitCount (n / 10 ^ f) - digits) ∣ n / 10 ^ f := by
  have hpos : 0 < 10 ^ f := Nat.pow_pos (by decide)
  have hwhole : 0 < n / 10 ^ f := Nat.lt_of_lt_of_le (Nat.pow_pos (by decide)) hlong
  have hcount : digits < digitCount (n / 10 ^ f) := by
    by_contra hle
    have hlt := lt_pow_digitCount (n / 10 ^ f)
    have := Nat.pow_le_pow_right (by decide : 0 < 10) (Nat.not_lt.1 hle)
    omega
  -- the unit is a unit of the whole part
  have hunit : 10 ^ (digitCount n - digits) =
      10 ^ (digitCount (n / 10 ^ f) - digits) * 10 ^ f := by
    rw [digitCount_div_pow hwhole, ← Nat.pow_add]
    congr 1
    omega
  have hten : 10 ∣ 10 ^ (digitCount (n / 10 ^ f) - digits) := dvd_pow_self 10 (by omega)
  simp only [roundToDigits, Nat.pow_eq, hunit]
  generalize 10 ^ (digitCount (n / 10 ^ f) - digits) = unit at hten
  rw [← Nat.mul_assoc, Nat.mul_div_cancel _ hpos]
  constructor
  · intro h
    rw [← h]
    exact Nat.dvd_mul_left _ _
  · rintro ⟨q, hq⟩
    -- what stands behind the whole part is less than a tenth of the unit
    have hrest := Nat.mod_lt n hpos
    have hn : n = q * (unit * 10 ^ f) + n % 10 ^ f := by
      rw [← Nat.mul_assoc, Nat.mul_comm q, ← hq, Nat.mul_comm, Nat.div_add_mod]
    have hten : 10 ≤ unit := by
      refine Nat.le_of_dvd (Nat.pos_of_ne_zero ?_) hten
      rintro rfl
      rw [hq, Nat.zero_mul] at hwhole
      exact Nat.lt_irrefl 0 hwhole
    have hunit : 10 * 10 ^ f ≤ unit * 10 ^ f := Nat.mul_le_mul_right _ hten
    have hround : roundHalfEven n (unit * 10 ^ f) = q := by
      rw [hn]
      exact roundHalfEven_mul_add (by omega) q
    rw [hround, hq, Nat.mul_comm]

/-! ## Short whole parts -/

/-- A number below a multiple of the unit stays below it unless that is the nearest one; of two that
are as near the even one counts. -/
theorem roundHalfEven_lt_iff {num unit q : Nat} (hlt : num < q * unit) :
    roundHalfEven num unit < q ↔
      unit < 2 * (q * unit - num) ∨ unit = 2 * (q * unit - num) ∧ q % 2 = 1 := by
  have hunit : 0 < unit := Nat.pos_of_mul_pos_left (Nat.zero_lt_of_lt hlt)
  have hdiv : num / unit < q := (Nat.div_lt_iff_lt_mul hunit).2 hlt
  have hnum := Nat.div_add_mod num unit
  have hmod := Nat.mod_lt num hunit
  rcases Nat.lt_or_eq_of_le (Nat.succ_le_of_lt hdiv) with hfar | hnext
  · -- more than a unit is missing
    have hround := roundHalfEven_le num unit
    have hmissing : (num / unit + 2) * unit ≤ q * unit := Nat.mul_le_mul_right unit hfar
    rw [Nat.add_mul, Nat.mul_comm (num / unit)] at hmissing
    refine iff_of_true (by omega) (Or.inl ?_)
    omega
  · have hmissing : q * unit - num = unit - num % unit := by
      rw [← hnext, Nat.succ_mul, Nat.mul_comm]
      omega
    rw [hmissing]
    simp only [roundHalfEven]
    split
    · omega
    · split
      · omega
      · omega

/-- Numbers that are a multiple of a power of ten and not too long stay as they are. -/
theorem roundToDigits_mul_pow_eq_self (hdigits : 0 < digits) {n : Nat} (h : n ≤ 10 ^ digits)
    (f : Nat) : roundToDigits digits (n * 10 ^ f) = n * 10 ^ f := by
  have hcount : digitCount n ≤ digits + 1 := by
    rw [digitCount_le_iff (Nat.succ_pos digits)]
    exact Nat.lt_of_le_of_lt h (Nat.pow_lt_pow_right (by decide) (Nat.lt_succ_self digits))
  rw [roundToDigits_mul_pow]
  congr 1
  rcases Nat.lt_or_eq_of_le h with hlt | rfl
  · exact roundToDigits_of_digitCount_le ((digitCount_le_iff hdigits n).2 hlt)
  · -- the power of ten itself has one digit more
    exact roundToDigits_eq_self (Nat.pow_dvd_pow 10 (by omega))

/-- Rounding a long number keeps it below the whole number that follows it when the distance is more
than half a unit, or just half a unit and that number is odd. -/
theorem roundToDigits_lt_iff {n e f w : Nat} (hcount : digitCount n = e + f) (he : e ≤ digits)
    (hlong : digits < digitCount n) (hlt : n < w * 10 ^ f) :
    roundToDigits digits n < w * 10 ^ f ↔
      10 ^ (e + f) < 2 * (w * 10 ^ f - n) * 10 ^ digits ∨
        e = digits ∧ w % 2 = 1 ∧ 10 ^ f = 2 * (w * 10 ^ f - n) := by
  have hunit : 0 < 10 ^ (e + f - digits) := Nat.pow_pos (by decide)
  have hscale : 10 ^ (e + f) = 10 ^ (e + f - digits) * 10 ^ digits := by
    rw [← Nat.pow_add]
    congr 1
    omega
  -- the whole number is a number of units
  have hunits : w * 10 ^ f = w * 10 ^ (digits - e) * 10 ^ (e + f - digits) := by
    rw [Nat.mul_assoc, ← Nat.pow_add]
    congr 2
    omega
  have hround : roundToDigits digits n =
      roundHalfEven n (10 ^ (e + f - digits)) * 10 ^ (e + f - digits) := by
    simp only [roundToDigits, Nat.pow_eq, hcount]
  have hbelow := hlt
  rw [hunits] at hbelow
  rw [hround, hscale, Nat.mul_lt_mul_right (Nat.pow_pos (by decide))]
  nth_rewrite 1 [hunits]
  rw [Nat.mul_lt_mul_right hunit, roundHalfEven_lt_iff hbelow, ← hunits]
  refine or_congr_right ⟨?_, ?_⟩
  · rintro ⟨hhalf, hodd⟩
    -- an odd number of units is no multiple of ten
    have hsame : e = digits := by
      by_contra hne
      obtain ⟨m, hm⟩ := Nat.exists_eq_add_of_lt (Nat.lt_of_le_of_ne he hne)
      rw [hm, show e + m + 1 - e = m + 1 by omega, Nat.pow_succ, ← Nat.mul_assoc] at hodd
      omega
    subst hsame
    rw [Nat.sub_self, Nat.pow_zero, Nat.mul_one] at hodd
    rw [Nat.add_sub_cancel_left] at hhalf
    exact ⟨rfl, hodd, hhalf⟩
  · rintro ⟨rfl, hodd, hhalf⟩
    rw [Nat.add_sub_cancel_left, Nat.sub_self, Nat.pow_zero, Nat.mul_one]
    exact ⟨hhalf, hodd⟩

/-- A whole part `n / 10 ^ f` of at most `digits` digits is kept unless the number is rounded to the
next whole number. -/
theorem roundToDigits_div_eq_iff_of_lt (hdigits : 0 < digits) {n f : Nat}
    (hshort : n / 10 ^ f < 10 ^ digits) :
    roundToDigits digits n / 10 ^ f = n / 10 ^ f ↔
      10 ^ ((Nat.digits 10 (n / 10 ^ f)).length + f) <
          2 * ((n / 10 ^ f + 1) * 10 ^ f - n) * 10 ^ digits ∨
        (Nat.digits 10 (n / 10 ^ f)).length = digits ∧ (n / 10 ^ f + 1) % 2 = 1 ∧
          10 ^ f = 2 * ((n / 10 ^ f + 1) * 10 ^ f - n) := by
  have hpos : 0 < 10 ^ f := Nat.pow_pos (by decide)
  have hlt : n < (n / 10 ^ f + 1) * 10 ^ f := by
    rw [Nat.mul_comm]
    exact Nat.lt_mul_div_succ n hpos
  -- the number is rounded within its whole number and the next one
  have hbelow : n / 10 ^ f * 10 ^ f ≤ roundToDigits digits n := by
    rw [← roundToDigits_mul_pow_eq_self hdigits (Nat.le_of_lt hshort)]
    exact roundToDigits_mono hdigits (Nat.div_mul_le_self n _)
  have hkept : roundToDigits digits n / 10 ^ f = n / 10 ^ f ↔
      roundToDigits digits n < (n / 10 ^ f + 1) * 10 ^ f := by
    rw [← Nat.div_lt_iff_lt_mul hpos]
    have := (Nat.le_div_iff_mul_le hpos).2 hbelow
    omega
  rw [hkept]
  rcases digitCount_eq_or_lt n f with hcount | htenth
  · have he : (Nat.digits 10 (n / 10 ^ f)).length ≤ digits := by
      rw [Nat.digits_length_le_iff (by decide)]
      exact hshort
    rcases Nat.lt_or_ge digits (digitCount n) with hlong | hfew
    · exact roundToDigits_lt_iff hcount he hlong hlt
    · -- a number that is not too long is not rounded
      rw [roundToDigits_of_digitCount_le hfew]
      refine iff_of_true hlt (Or.inl ?_)
      have hpow : 10 ^ ((Nat.digits 10 (n / 10 ^ f)).length + f) ≤ 10 ^ digits :=
        Nat.pow_le_pow_right (by decide) (hcount ▸ hfew)
      have hgap : 2 * 10 ^ digits ≤ 2 * ((n / 10 ^ f + 1) * 10 ^ f - n) * 10 ^ digits :=
        Nat.mul_le_mul_right _ (by omega)
      have : 0 < 10 ^ digits := Nat.pow_pos (by decide)
      omega
  · -- less than a tenth is far from one
    have hzero : n / 10 ^ f = 0 := Nat.div_eq_of_lt (by omega)
    rw [hzero, Nat.zero_add, Nat.one_mul, Nat.digits_zero, List.length_nil, Nat.zero_add]
    have hround := roundToDigits_le hdigits n
    have hgap : 2 * (10 ^ f - n) ≤ 2 * (10 ^ f - n) * 10 ^ digits :=
      Nat.le_mul_of_pos_right _ (Nat.pow_pos (by decide))
    exact iff_of_true (by omega) (Or.inl (by omega))

end FileClerk.Number
