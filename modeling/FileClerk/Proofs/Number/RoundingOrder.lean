import FileClerk.Proofs.Number.Rounding

/-!
# Rounding keeps the order

Rounding to the nearest number of units takes no number past another one (`roundHalfEven_mono`), and
it leaves whole numbers of units alone. Numbers of the same number of digits are rounded to the same
unit, and between numbers of different lengths lies a power of ten, which neither is rounded past.
So rounding to leading digits keeps the order of all numbers (`roundToDigits_mono`), and since zeros
behind the point change nothing (`roundToDigits_mul_pow`), that of decimal fractions with any number
of places and of their whole parts (`roundToDigits_div_le`).
-/

set_option autoImplicit false

namespace FileClerk.Number

/-! ## Rounding to a unit -/

/-- Less than half a unit is left out. -/
theorem roundHalfEven_mul_add {rest unit : Nat} (h : 2 * rest < unit) (q : Nat) :
    roundHalfEven (q * unit + rest) unit = q := by
  have hunit : rest < unit := by omega
  rw [Nat.add_comm, roundHalfEven]
  simp only [Nat.add_mul_mod_self_right, Nat.mod_eq_of_lt hunit, if_pos h,
    Nat.add_mul_div_right _ _ (Nat.zero_lt_of_lt hunit), Nat.div_eq_of_lt hunit, Nat.zero_add]

/-- A multiple of the unit is a whole number of units. -/
theorem roundHalfEven_mul {unit : Nat} (hunit : 0 < unit) (q : Nat) :
    roundHalfEven (q * unit) unit = q := by
  have hzero : 2 * 0 < unit := hunit
  exact roundHalfEven_mul_add hzero q

theorem div_le_roundHalfEven (num den : Nat) : num / den ≤ roundHalfEven num den := by
  simp only [roundHalfEven]
  split
  · exact Nat.le_refl _
  · split
    · exact Nat.le_succ _
    · exact Nat.le_add_right _ _

/-- The number of units, `roundHalfEven`, is monotone. -/
theorem roundHalfEven_mono {a b : Nat} (h : a ≤ b) (unit : Nat) :
    roundHalfEven a unit ≤ roundHalfEven b unit := by
  rcases Nat.lt_or_eq_of_le (Nat.div_le_div_right (c := unit) h) with hlt | heq
  · calc roundHalfEven a unit ≤ a / unit + 1 := roundHalfEven_le a unit
      _ ≤ b / unit := hlt
      _ ≤ roundHalfEven b unit := div_le_roundHalfEven b unit
  · -- with as many whole units, what is left decides
    have ha := Nat.div_add_mod a unit
    have hb := Nat.div_add_mod b unit
    rw [heq] at ha
    have hrest : a % unit ≤ b % unit := by omega
    simp only [roundHalfEven, heq]
    split
    · exact div_le_roundHalfEven b unit
    · split
      · exact Nat.le_of_eq (by rw [if_neg (by omega), if_pos (by omega)])
      · -- the smaller number is a tie, and the larger one is so as well or lies past it
        rw [if_neg (by omega)]
        split
        · have := Nat.mod_lt (b / unit) (by decide : 0 < 2)
          omega
        · exact Nat.le_refl _

/-- Numbers and unit may be scaled alike. -/
theorem roundHalfEven_mul_right {k : Nat} (hk : 0 < k) (num unit : Nat) :
    roundHalfEven (num * k) (unit * k) = roundHalfEven num unit := by
  have hlt : ∀ a b : Nat, a * k < b * k ↔ a < b := fun a b => Nat.mul_lt_mul_right hk
  simp only [roundHalfEven, Nat.mul_div_mul_right _ _ hk, Nat.mul_mod_mul_right, ← Nat.mul_assoc,
    hlt]

/-! ## Rounding to leading digits -/

theorem digitCount_pos (n : Nat) : 0 < digitCount n := by
  unfold digitCount
  split
  · decide
  · exact Nat.succ_pos _

theorem digitCount_mono {a b : Nat} (h : a ≤ b) : digitCount a ≤ digitCount b :=
  (digitCount_le_iff (digitCount_pos b) a).2
    (Nat.lt_of_le_of_lt h ((digitCount_le_iff (digitCount_pos b) b).1 (Nat.le_refl _)))

theorem lt_pow_digitCount (n : Nat) : n < 10 ^ digitCount n :=
  (digitCount_le_iff (digitCount_pos n) n).1 (Nat.le_refl _)

theorem digitCount_mul_ten {n : Nat} (hn : 0 < n) : digitCount (n * 10) = digitCount n + 1 := by
  conv_lhs => unfold digitCount
  rw [if_neg (by omega), Nat.mul_div_cancel _ (by decide)]

variable {digits : Nat}

/-- A number whose digits behind the leading ones are zero is left alone by `roundToDigits`. -/
theorem roundToDigits_eq_self {n : Nat} (h : 10 ^ (digitCount n - digits) ∣ n) :
    roundToDigits digits n = n := by
  obtain ⟨q, hq⟩ := h
  have hpos : 0 < 10 ^ (digitCount n - digits) := Nat.pow_pos (by decide)
  simp only [roundToDigits, Nat.pow_eq]
  generalize 10 ^ (digitCount n - digits) = unit at hq hpos
  rw [hq, Nat.mul_comm unit q, roundHalfEven_mul hpos]

/-- So does a number that is not too long. -/
theorem roundToDigits_of_digitCount_le {n : Nat} (h : digitCount n ≤ digits) :
    roundToDigits digits n = n := by
  apply roundToDigits_eq_self
  rw [Nat.sub_eq_zero_of_le h, Nat.pow_zero]
  exact Nat.one_dvd n

/-- A zero at the end changes nothing in `roundToDigits`. -/
theorem roundToDigits_mul_ten (n : Nat) :
    roundToDigits digits (n * 10) = roundToDigits digits n * 10 := by
  rcases Nat.eq_zero_or_pos n with rfl | hn
  · have hzero : roundToDigits digits 0 = 0 := roundToDigits_eq_self (Nat.dvd_zero _)
    rw [Nat.zero_mul, hzero]
  · by_cases hlong : digits ≤ digitCount n
    · -- the unit grows with the number
      have hunit : 10 ^ (digitCount n + 1 - digits) = 10 ^ (digitCount n - digits) * 10 := by
        rw [Nat.succ_sub hlong, Nat.pow_succ]
      simp only [roundToDigits, Nat.pow_eq, digitCount_mul_ten hn, hunit,
        roundHalfEven_mul_right (by decide : 0 < 10), Nat.mul_assoc]
    · -- neither number is too long
      have hcount := digitCount_mul_ten hn
      rw [roundToDigits_of_digitCount_le (by omega), roundToDigits_of_digitCount_le (by omega)]

theorem roundToDigits_mul_pow (n k : Nat) :
    roundToDigits digits (n * 10 ^ k) = roundToDigits digits n * 10 ^ k := by
  induction k with
  | zero => rw [Nat.pow_zero, Nat.mul_one, Nat.mul_one]
  | succ k ih =>
      rw [Nat.pow_succ, ← Nat.mul_assoc, roundToDigits_mul_ten, ih, Nat.mul_assoc]

/-! ## Round numbers -/

/-- What is at most a round number is rounded to at most that. -/
theorem roundHalfEven_mul_le {n q unit : Nat} (hunit : 0 < unit) (h : n ≤ q * unit) :
    roundHalfEven n unit * unit ≤ q * unit := by
  have hq := roundHalfEven_mono h unit
  rw [roundHalfEven_mul hunit] at hq
  exact Nat.mul_le_mul_right unit hq

theorem le_roundHalfEven_mul {n q unit : Nat} (hunit : 0 < unit) (h : q * unit ≤ n) :
    q * unit ≤ roundHalfEven n unit * unit := by
  have hq := roundHalfEven_mono h unit
  rw [roundHalfEven_mul hunit] at hq
  exact Nat.mul_le_mul_right unit hq

/-- A number of few digits is rounded to at most the power of ten above it. -/
theorem roundToDigits_le_pow {n k : Nat} (h : digitCount n ≤ k) :
    roundToDigits digits n ≤ 10 ^ k := by
  have hpow : 10 ^ k = 10 ^ (k - (digitCount n - digits)) * 10 ^ (digitCount n - digits) := by
    rw [← Nat.pow_add, Nat.sub_add_cancel (by omega)]
  -- the power of ten is a round number, since it is no shorter than the unit
  have hn : n ≤ 10 ^ k :=
    Nat.le_of_lt (Nat.lt_of_lt_of_le (lt_pow_digitCount n) (Nat.pow_le_pow_right (by decide) h))
  simp only [roundToDigits, Nat.pow_eq]
  rw [hpow] at hn ⊢
  exact roundHalfEven_mul_le (Nat.pow_pos (by decide)) hn

/-- A number of many digits is rounded to no less than the power of ten below it. -/
theorem pow_le_roundToDigits (hdigits : 0 < digits) {n k : Nat} (h : k < digitCount n)
    (hn : 0 < n) : 10 ^ k ≤ roundToDigits digits n := by
  have hpow : 10 ^ (digitCount n - 1) = 10 ^ (digitCount n - 1 - (digitCount n - digits)) *
      10 ^ (digitCount n - digits) := by
    rw [← Nat.pow_add, Nat.sub_add_cancel (by omega)]
  have hle := pow_le_of_digitCount hn
  rw [hpow] at hle
  simp only [roundToDigits, Nat.pow_eq]
  calc 10 ^ k ≤ 10 ^ (digitCount n - 1) := Nat.pow_le_pow_right (by decide) (by omega)
    _ = 10 ^ (digitCount n - 1 - (digitCount n - digits)) * 10 ^ (digitCount n - digits) := hpow
    _ ≤ _ := le_roundHalfEven_mul (Nat.pow_pos (by decide)) hle

/-- The result of `roundToDigits` is monotone, also where the number of digits changes. -/
theorem roundToDigits_mono (hdigits : 0 < digits) {a b : Nat} (h : a ≤ b) :
    roundToDigits digits a ≤ roundToDigits digits b := by
  rcases Nat.lt_or_eq_of_le (digitCount_mono h) with hlt | heq
  · -- a power of ten lies between the two
    have hb : 0 < b := by
      rcases Nat.eq_zero_or_pos b with rfl | hb
      · obtain rfl := Nat.le_zero.1 h
        exact absurd hlt (Nat.lt_irrefl _)
      · exact hb
    calc roundToDigits digits a ≤ 10 ^ digitCount a := roundToDigits_le_pow (Nat.le_refl _)
      _ ≤ roundToDigits digits b := pow_le_roundToDigits hdigits hlt hb
  · simp only [roundToDigits, Nat.pow_eq, heq]
    exact Nat.mul_le_mul_right _ (roundHalfEven_mono h _)

/-- The order of decimal fractions survives `roundToDigits`. -/
theorem roundToDigits_div_le (hdigits : 0 < digits) {a b k l : Nat}
    (h : a * 10 ^ l ≤ b * 10 ^ k) :
    roundToDigits digits a / 10 ^ k ≤ roundToDigits digits b / 10 ^ l := by
  -- with as many places behind the point, the order is that of whole numbers
  have hscaled := roundToDigits_mono hdigits h
  rw [roundToDigits_mul_pow, roundToDigits_mul_pow] at hscaled
  generalize roundToDigits digits a = x at hscaled
  generalize roundToDigits digits b = y at hscaled
  have hk : 0 < 10 ^ k := Nat.pow_pos (by decide)
  have hl : 0 < 10 ^ l := Nat.pow_pos (by decide)
  rw [Nat.le_div_iff_mul_le hl]
  apply Nat.le_of_mul_le_mul_right _ hk
  calc x / 10 ^ k * 10 ^ l * 10 ^ k = x / 10 ^ k * 10 ^ k * 10 ^ l := Nat.mul_right_comm _ _ _
    _ ≤ x * 10 ^ l := Nat.mul_le_mul_right _ (Nat.div_mul_le_self x _)
    _ ≤ y * 10 ^ k := hscaled

end FileClerk.Number
