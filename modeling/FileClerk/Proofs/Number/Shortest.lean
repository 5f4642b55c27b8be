import Mathlib.Data.Nat.Cast.Order.Field
import FileClerk.Proofs.Number.Nearest

/-!
# Shortest decimal forms

A decimal numeral stands for a number between two powers of ten, which its length gives
(`isSize_decimal`), so the number nearest to it depends on its value alone (`ofDecimal_congr`).
Rounded to seventeen digits, a number in range is so near that it is found again
(`ofDecimal_near`). So the shortest form is one that is found, and it reads back as the number
(`ofDecimal_shortest`).
-/

set_option autoImplicit false

namespace FileClerk.Number

namespace Binary64

/-! ## Sizes -/

/-- The number `x` lies between `10 ^ (k - 1)` and `10 ^ k`. -/
structure IsSize (x : ℚ) (k : Int) : Prop where
  above : 10 ^ (k - 1) ≤ x
  below : x < 10 ^ k

section Sizes

variable {x : ℚ} {k k' : Int} {n num den : Nat}

theorem IsSize.le (h : IsSize x k) (h' : IsSize x k') : k ≤ k' := by
  have hlt := (zpow_lt_zpow_iff_right₀ (by norm_num : (1 : ℚ) < 10)).1
    (lt_of_le_of_lt h.above h'.below)
  omega

/-- A number has one size. -/
theorem IsSize.unique (h : IsSize x k) (h' : IsSize x k') : k = k' :=
  le_antisymm (h.le h') (h'.le h)

theorem IsSize.mul_pow (h : IsSize x k) (e : Int) : IsSize (x * 10 ^ e) (k + e) := by
  have hpos : (0 : ℚ) < 10 ^ e := zpow_pos (by norm_num) e
  have hten : (10 : ℚ) ≠ 0 := by norm_num
  constructor
  · rw [show k + e - 1 = k - 1 + e by ring, zpow_add₀ hten]
    exact mul_le_mul_of_nonneg_right h.above hpos.le
  · rw [zpow_add₀ hten]
    exact mul_lt_mul_of_pos_right h.below hpos

/-- The `IsSize` of a whole number is its `digitCount`. -/
theorem isSize_natCast (hn : 0 < n) : IsSize n (digitCount n) := by
  have hcount := digitCount_pos n
  constructor
  · have hle : ((10 ^ (digitCount n - 1) : Nat) : ℚ) ≤ n :=
      Nat.cast_le.2 (pow_le_of_digitCount hn)
    rw [← Nat.cast_pred hcount, zpow_natCast]
    exact_mod_cast hle
  · rw [zpow_natCast]
    exact_mod_cast lt_pow_digitCount n

/-- The size of a numeral is given by its length. -/
theorem isSize_decimal {d : Nat} (hd : 0 < d) (k : Int) :
    IsSize (d * 10 ^ k) (k + digitCount d) := by
  rw [add_comm]
  exact (isSize_natCast hd).mul_pow k

/-- The size of a quotient of at least one is that of its whole part. -/
theorem isSize_div (hden : 0 < den) (h : den ≤ num) :
    IsSize ((num : ℚ) / den) (digitCount (num / den)) := by
  have hpos : (0 : ℚ) < den := Nat.cast_pos.2 hden
  have hwhole := isSize_natCast (Nat.div_pos h hden)
  constructor
  · exact le_trans hwhole.above Nat.cast_div_le
  · have hlt : num / den + 1 ≤ 10 ^ digitCount (num / den) := lt_pow_digitCount _
    have hle : ((num / den + 1 : Nat) : ℚ) ≤ 10 ^ digitCount (num / den) := by exact_mod_cast hlt
    have hnum : (num : ℚ) < (num / den + 1 : Nat) * den := by
      have := Nat.lt_succ_iff.2 (Nat.le_refl (num / den))
      rw [Nat.div_lt_iff_lt_mul hden] at this
      exact_mod_cast this
    rw [zpow_natCast]
    exact lt_of_lt_of_le ((div_lt_iff₀ hpos).2 hnum) hle

/-- A quotient lies between powers of ten that the sizes of its parts give. -/
theorem quotient_bounds {x y : ℚ} (hy : 0 < y) {a b : Int} (hx : IsSize x a) (hsize : IsSize y b) :
    10 ^ (a - b - 1) ≤ x / y ∧ x / y < 10 ^ (a - b + 1) := by
  have hten : (10 : ℚ) ≠ 0 := by norm_num
  constructor
  · rw [le_div_iff₀ hy]
    calc (10 : ℚ) ^ (a - b - 1) * y ≤ 10 ^ (a - b - 1) * 10 ^ b :=
          mul_le_mul_of_nonneg_left hsize.below.le (zpow_pos (by norm_num) _).le
      _ = 10 ^ (a - 1) := by
          rw [← zpow_add₀ hten]
          congr 1
          ring
      _ ≤ x := hx.above
  · rw [div_lt_iff₀ hy]
    calc x < 10 ^ a := hx.below
      _ = 10 ^ (a - b + 1) * 10 ^ (b - 1) := by
          rw [← zpow_add₀ hten]
          congr 1
          ring
      _ ≤ 10 ^ (a - b + 1) * y :=
          mul_le_mul_of_nonneg_left hsize.above (zpow_pos (by norm_num) _).le

/-- The size of a positive quotient is computed by `decimalSize`. -/
theorem isSize_decimalSize (hnum : 0 < num) (hden : 0 < den) :
    IsSize ((num : ℚ) / den) (decimalSize num den) := by
  have hpos : (0 : ℚ) < den := Nat.cast_pos.2 hden
  rw [decimalSize]
  split
  · rename_i hle
    exact isSize_div hden hle
  · rename_i hlt
    obtain ⟨hlow, hhigh⟩ := quotient_bounds hpos (isSize_natCast hnum) (isSize_natCast hden)
    have hcount := digitCount_mono (Nat.le_of_lt (Nat.not_le.1 hlt))
    generalize digitCount num = a at hlow hhigh hcount
    generalize digitCount den = b at hlow hhigh hcount
    -- the quotient is compared with the power of ten between the bounds
    have hshort : num * Nat.pow 10 (-((a : Int) - b)).toNat < den ↔
        (num : ℚ) / den < 10 ^ ((a : Int) - b) := by
      rw [div_lt_iff₀ hpos, ← @Nat.cast_lt ℚ]
      simp only [Nat.pow_eq]
      push_cast
      rw [pow_toNat (by omega), zpow_neg, ← div_eq_mul_inv,
        div_lt_iff₀ (zpow_pos (by norm_num) _), mul_comm]
    simp only
    split
    · rename_i hif
      exact ⟨hlow, hshort.1 hif⟩
    · rename_i hif
      refine ⟨?_, hhigh⟩
      rw [add_sub_cancel_right]
      exact not_lt.1 (mt hshort.2 hif)

end Sizes

/-! ## Numerals -/

section Numerals

variable {negative : Bool} {d d' m : Nat} {k k' e : Int}

/-- The number `ofDecimal` is an `ofRatio`, unless the numeral is far outside of the range. -/
theorem ofDecimal_eq (hd : 0 < d) (k : Int) :
    ∃ num den : Nat, 0 < num ∧ 0 < den ∧ (num : ℚ) / den = d * 10 ^ k ∧
      ∀ negative, ofDecimal negative d k =
        if 400 < k + digitCount d then infinite negative
        else if k + digitCount d < -400 then zero negative else ofRatio negative num den := by
  have hzero : ¬(d == 0) = true := by simpa using hd.ne'
  rcases lt_or_ge k 0 with hk | hk
  · refine ⟨d, 10 ^ (-k).toNat, hd, Nat.pow_pos (by decide), ?_, ?_⟩
    · push_cast
      rw [pow_toNat (by omega), zpow_neg, div_inv_eq_mul]
    · intro negative
      simp only [ofDecimal, if_neg hzero, if_pos hk, Nat.pow_eq]
  · refine ⟨d * 10 ^ k.toNat, 1, Nat.mul_pos hd (Nat.pow_pos (by decide)), by decide, ?_, ?_⟩
    · push_cast
      rw [pow_toNat hk, div_one]
    · intro negative
      simp only [ofDecimal, if_neg hzero, if_neg (not_lt.2 hk), Nat.pow_eq]

/-- The number `ofDecimal` depends on the value `d * 10 ^ k` alone. -/
theorem ofDecimal_congr (h : (d : ℚ) * 10 ^ k = d' * 10 ^ k') (negative : Bool) :
    ofDecimal negative d k = ofDecimal negative d' k' := by
  have hpos : ∀ k : Int, (10 : ℚ) ^ k ≠ 0 := fun k => zpow_ne_zero k (by norm_num)
  rcases Nat.eq_zero_or_pos d with rfl | hd
  · have hd' : d' = 0 := by
      rw [Nat.cast_zero, zero_mul, eq_comm, mul_eq_zero] at h
      exact Nat.cast_eq_zero.1 (h.resolve_right (hpos k'))
    rw [hd']
    rfl
  · have hd' : 0 < d' := by
      rw [Nat.pos_iff_ne_zero]
      rintro rfl
      rw [Nat.cast_zero, zero_mul, mul_eq_zero] at h
      exact hd.ne' (Nat.cast_eq_zero.1 (h.resolve_right (hpos k)))
    have hsize : k + digitCount d = k' + digitCount d' :=
      (isSize_decimal hd k).unique (h ▸ isSize_decimal hd' k')
    obtain ⟨num, den, hnum, hden, hvalue, heq⟩ := ofDecimal_eq hd k
    obtain ⟨num', den', hnum', hden', hvalue', heq'⟩ := ofDecimal_eq hd' k'
    have hratio : num * den' = num' * den := by
      rw [← h, ← hvalue, div_eq_div_iff (Nat.cast_ne_zero.2 hden'.ne')
        (Nat.cast_ne_zero.2 hden.ne')] at hvalue'
      exact_mod_cast hvalue'.symm
    rw [heq, heq', hsize, ofRatio_congr hnum hden hden' hratio]

/-- A numeral with a minus sign stands for the number with the other sign. -/
theorem ofDecimal_true (d : Nat) (k : Int) : ofDecimal true d k = (ofDecimal false d k).neg := by
  have hpack : ∀ m e, pack true m e = (pack false m e).neg := by
    intro m e
    simp only [pack]
    split
    · rfl
    · split <;> split <;> rfl
  have hratio : ∀ num den, ofRatio true num den = (ofRatio false num den).neg := by
    intro num den
    simp only [ofRatio]
    split
    · rfl
    · exact hpack _ _
  simp only [ofDecimal]
  split
  · rfl
  · split
    · rfl
    · split
      · rfl
      · split
        · exact hratio _ _
        · exact hratio _ _

theorem ofDecimal_eq_finite (h : ofDecimal false d k = finite false m e) (negative : Bool) :
    ofDecimal negative d k = finite negative m e := by
  cases negative with
  | false => exact h
  | true =>
      rw [ofDecimal_true, h]
      rfl

/-- Powers of ten grow at least as fast as those of eight. -/
theorem two_pow_le_ten_pow {a b : Nat} (h : a ≤ 3 * b) : (2 : ℚ) ^ (a : Int) ≤ 10 ^ (b : Int) := by
  rw [zpow_natCast, zpow_natCast]
  calc (2 : ℚ) ^ a ≤ 2 ^ (3 * b) := pow_le_pow_right₀ (by norm_num) h
    _ = 8 ^ b := by
        rw [pow_mul]
        norm_num
    _ ≤ 10 ^ b := pow_le_pow_left₀ (by norm_num) (by norm_num) b

/-- No positive number in range is below the least power of two. -/
theorem le_value (hm : 0 < m) (h : InRange m e) : (2 : ℚ) ^ (-1074 : Int) ≤ value m e := by
  have hone : (1 : ℚ) ≤ m := by exact_mod_cast hm
  calc (2 : ℚ) ^ (-1074 : Int) ≤ 2 ^ e := zpow_le_zpow_right₀ (by norm_num) h.least
    _ ≤ value m e := le_mul_of_one_le_left (zpow_pos (by norm_num) e).le hone

/-- No number in range is above the largest power of two. -/
theorem value_le (h : InRange m e) : value m e ≤ 2 ^ (1024 : Int) := by
  have hmantissa : (m : ℚ) ≤ 2 ^ 53 := by exact_mod_cast h.mantissa.le
  calc value m e ≤ 2 ^ 53 * 2 ^ e :=
        mul_le_mul_of_nonneg_right hmantissa (zpow_pos (by norm_num) e).le
    _ = 2 ^ (53 + e) := (two_pow_add 53 e).symm
    _ ≤ 2 ^ (1024 : Int) := zpow_le_zpow_right₀ (by norm_num) (by have := h.largest; omega)

/-- A power of ten that is below half the least power of two. -/
theorem ten_pow_le_half : (10 : ℚ) ^ (-401 : Int) ≤ 2 ^ (-1074 : Int) / 2 := by
  have hle := two_pow_le_ten_pow (by decide : 1075 ≤ 3 * 401)
  rw [le_div_iff₀ (by norm_num)]
  calc (10 : ℚ) ^ (-401 : Int) * 2 = (10 ^ ((401 : Nat) : Int))⁻¹ * 2 := by
        rw [← zpow_neg]
        rfl
    _ ≤ (2 ^ ((1075 : Nat) : Int))⁻¹ * 2 := by
        apply mul_le_mul_of_nonneg_right _ (by norm_num)
        exact inv_anti₀ (zpow_pos (by norm_num) _) hle
    _ = 2 ^ (-1074 : Int) := by
        rw [← zpow_neg, ← zpow_add_one₀ (by norm_num)]
        rfl

/-- A power of ten that is above twice the largest power of two. -/
theorem double_le_ten_pow : (2 : ℚ) ^ (1024 : Int) * 2 ≤ 10 ^ (400 : Int) := by
  rw [← zpow_add_one₀ (by norm_num)]
  exact two_pow_le_ten_pow (by decide : 1025 ≤ 3 * 400)

/-- The size of what is near a number in range is moderate. -/
theorem size_bounds (hm : 0 < m) (h : InRange m e) {x : ℚ} (hnear : IsNear x (value m e)) {s : Int}
    (hs : IsSize x s) : -400 ≤ s ∧ s ≤ 400 := by
  obtain ⟨hlow, hhigh⟩ := abs_le.1 hnear
  have hpos := value_pos hm e
  constructor
  · by_contra hlt
    have hbelow : x < 10 ^ (-401 : Int) :=
      lt_of_lt_of_le hs.below (zpow_le_zpow_right₀ (by norm_num) (by omega))
    have hleast := le_value hm h
    have hpower := ten_pow_le_half
    linarith
  · by_contra hgt
    have habove : (10 : ℚ) ^ (400 : Int) ≤ x :=
      le_trans (zpow_le_zpow_right₀ (by norm_num) (by omega)) hs.above
    have hmost := value_le h
    have hpower := double_le_ten_pow
    generalize (2 : ℚ) ^ (1024 : Int) = most at hmost hpower
    generalize (10 : ℚ) ^ (400 : Int) = large at habove hpower
    linarith

/-- A number `InRange` is the `ofDecimal` of every numeral that `IsNear` it. -/
theorem ofDecimal_near (hm : 0 < m) (h : InRange m e) (hnear : IsNear (d * 10 ^ k) (value m e)) :
    ofDecimal negative d k = finite negative m e := by
  have hd : 0 < d := by
    rw [Nat.pos_iff_ne_zero]
    rintro rfl
    have hpos := value_pos hm e
    rw [IsNear, Nat.cast_zero, zero_mul, zero_sub, abs_neg, abs_of_pos hpos] at hnear
    linarith
  obtain ⟨hlow, hhigh⟩ := size_bounds hm h hnear (isSize_decimal hd k)
  obtain ⟨num, den, hnum, hden, hvalue, heq⟩ := ofDecimal_eq hd k
  rw [heq, if_neg (by omega), if_neg (by omega)]
  exact ofRatio_near hm h hnum hden (hvalue ▸ hnear)

end Numerals

/-! ## Shortest forms -/

section Shortest

variable {x : Binary64} {num den count d m : Nat} {k e : Int}

/-- In `neighbour?` the rounded digits are tried first, and then those on the other side. -/
theorem neighbour?_eq (x : Binary64) (num den count : Nat) {k : Int}
    (hk : decimalSize num den - count = k) :
    ∃ other, neighbour? x num den count =
      if ofDecimal false (rounded 10 num den k) k == x then some (rounded 10 num den k, k)
      else if ofDecimal false other k == x then some (other, k) else none := by
  subst hk
  exact ⟨_, rfl⟩

/-- A numeral that `neighbour?` finds reads back as the number. -/
theorem ofDecimal_of_neighbour? (h : neighbour? x num den count = some (d, k)) :
    ofDecimal false d k = x := by
  obtain ⟨other, heq⟩ := neighbour?_eq x num den count rfl
  rw [heq] at h
  split at h
  · rename_i hhit
    cases h
    exact eq_of_beq hhit
  · split at h
    · rename_i hhit
      cases h
      exact eq_of_beq hhit
    · cases h

/-- The search `shortestFrom` finds a numeral if there is one of the last length. -/
theorem ofDecimal_shortestFrom (fuel : Nat) (h : (neighbour? x num den (count + fuel)).isSome) :
    ofDecimal false (shortestFrom x num den (fuel + 1) count).1
      (shortestFrom x num den (fuel + 1) count).2 = x := by
  induction fuel generalizing count with
  | zero =>
      obtain ⟨found, hfound⟩ := Option.isSome_iff_exists.1 h
      rw [Nat.add_zero] at hfound
      simp only [shortestFrom, hfound]
      exact ofDecimal_of_neighbour? hfound
  | succ fuel ih =>
      rw [shortestFrom]
      split
      · rename_i found hfound
        exact ofDecimal_of_neighbour? hfound
      · rw [← Nat.add_assoc, Nat.add_right_comm] at h
        exact ih h

/-- With seventeen digits `neighbour?` finds a number in range. -/
theorem isSome_neighbour?_seventeen (hm : 0 < m) (h : InRange m e) (hnum : 0 < num) (hden : 0 < den)
    (hvalue : (num : ℚ) / den = value m e) :
    (neighbour? (finite false m e) num den 17).isSome := by
  generalize hk : decimalSize num den - (17 : Nat) = k
  -- half a step is less than the distance that is allowed
  have hstep : (10 : ℚ) ^ k / 2 ≤ value m e / (2 * 10 ^ 16) := by
    have habove := (isSize_decimalSize hnum hden).above
    rw [show decimalSize num den - 1 = k + (16 : Nat) by omega, zpow_add₀ (by norm_num),
      zpow_natCast, hvalue] at habove
    rw [le_div_iff₀ (by norm_num)]
    linarith
  have hnear : IsNear (rounded 10 num den k * 10 ^ k) (value m e) := by
    have hround := abs_rounded_sub_le (by decide : 0 < 10) num hden k
    rw [Nat.cast_ofNat, hvalue] at hround
    exact le_trans hround hstep
  obtain ⟨other, heq⟩ := neighbour?_eq (finite false m e) num den 17 hk
  rw [heq, ofDecimal_near hm h hnear, beq_self_eq_true, if_pos rfl, Option.isSome_some]

/-- The numeral `shortest m e` reads back as the number. -/
theorem ofDecimal_shortest (hm : 0 < m) (h : InRange m e) (negative : Bool) :
    ofDecimal negative (shortest m e).1 (shortest m e).2 = finite negative m e := by
  apply ofDecimal_eq_finite
  apply ofDecimal_shortestFrom 16
  rcases lt_or_ge e 0 with he | he
  · rw [if_pos he, if_pos he]
    apply isSome_neighbour?_seventeen hm h hm (Nat.pow_pos (by decide))
    push_cast
    rw [pow_toNat (by omega), zpow_neg, div_inv_eq_mul, value]
  · rw [if_neg (not_lt.2 he), if_neg (not_lt.2 he)]
    apply isSome_neighbour?_seventeen hm h (Nat.mul_pos hm (Nat.pow_pos (by decide))) Nat.one_pos
    push_cast
    rw [pow_toNat he, div_one, value]

end Shortest

end Binary64

end FileClerk.Number
