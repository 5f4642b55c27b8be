import Mathlib.Algebra.Order.Field.Rat
import Mathlib.Algebra.Order.Field.Power
import Mathlib.Tactic.FieldSimp
import Mathlib.Tactic.Linarith
import Mathlib.Tactic.Positivity
import Mathlib.Tactic.Ring
import FileClerk.Number.Binary64
import FileClerk.Proofs.Number.RoundingOrder

/-!
# Nearest binary numbers

A positive quotient has one binary exponent at which its mantissa has 53 digits
(`isExponent_exponentFor`, `IsExponent.unique`), so the number nearest to a quotient depends on its
value alone (`ofRatio_congr`).

A canonical number is the one that is nearest to every quotient whose distance to it is at most its
`2 * 10 ^ 16`th part (`ofRatio_near`). This is less than half the gap to the numbers next to it,
also where the gap below is only half as wide as the one above. There the quotient may have the
exponent below that of the number (`IsExponent.eq_of_near_of_lt`). So a whole number of at most 53
binary digits is not rounded at all (`ratio?_ofInt`).
-/

set_option autoImplicit false

namespace FileClerk.Number

/-! ## Rounding of quotients -/

section Rounding

variable {num den num' den' n : Nat}

/-- The whole number less than `1 / 2` away from `num / den` is `roundHalfEven num den`. -/
theorem roundHalfEven_eq (hden : 0 < den) (h : |(num : ℚ) / den - n| < 1 / 2) :
    roundHalfEven num den = n := by
  have hpos : (0 : ℚ) < den := Nat.cast_pos.2 hden
  obtain ⟨hlow, hhigh⟩ := abs_lt.1 h
  have habove : 2 * num < (2 * n + 1) * den := by
    have : (num : ℚ) < (n + 1 / 2) * den := by
      rw [← div_lt_iff₀ hpos]
      linarith
    have : (2 * num : ℚ) < (2 * n + 1) * den := by linarith
    exact_mod_cast this
  have hbelow : 2 * n * den < 2 * num + den := by
    have : (n - 1 / 2) * (den : ℚ) < num := by
      rw [← lt_div_iff₀ hpos]
      linarith
    have : (2 * n * den : ℚ) < 2 * num + den := by linarith
    exact_mod_cast this
  rcases Nat.le_or_le (n * den) num with hle | hge
  · -- the quotient is rounded down
    obtain ⟨rest, rfl⟩ := Nat.exists_eq_add_of_le hle
    exact roundHalfEven_mul_add (by linarith) n
  · -- the quotient is rounded up, unless it is whole
    obtain ⟨gap, hgap⟩ := Nat.exists_eq_add_of_le hge
    have hhalf : 2 * gap < den := by linarith
    rcases Nat.eq_zero_or_pos gap with rfl | hpositive
    · rw [show num = n * den by omega, roundHalfEven_mul hden]
    · cases n with
      | zero => omega
      | succ n =>
          rw [Nat.succ_mul] at hgap
          have hnum : num = den - gap + n * den := by omega
          have hrest : den - gap < den := by omega
          rw [roundHalfEven, hnum]
          simp only [Nat.add_mul_mod_self_right, Nat.mod_eq_of_lt hrest,
            Nat.add_mul_div_right _ _ hden, Nat.div_eq_of_lt hrest]
          rw [if_neg (by omega), if_pos (by omega), Nat.zero_add]

/-- A quotient is at most `1 / 2` away from its `roundHalfEven`. -/
theorem abs_roundHalfEven_sub_le (num : Nat) (hden : 0 < den) :
    |(roundHalfEven num den : ℚ) - num / den| ≤ 1 / 2 := by
  have hpos : (0 : ℚ) < den := Nat.cast_pos.2 hden
  have hdiv : (num : ℚ) = num / den * den := by field_simp
  -- the same in whole numbers
  have hnum := Nat.div_add_mod num den
  have hmod := Nat.mod_lt num hden
  have hbounds : 2 * num ≤ (2 * roundHalfEven num den + 1) * den ∧
      2 * roundHalfEven num den * den ≤ 2 * num + den := by
    rw [roundHalfEven]
    generalize num / den = q at *
    generalize num % den = r at *
    subst hnum
    have hparity := Nat.mod_two_eq_zero_or_one q
    split
    · constructor <;> nlinarith
    · split
      · constructor <;> nlinarith
      · rcases hparity with hq | hq
        · rw [hq]
          constructor <;> nlinarith
        · rw [hq]
          constructor <;> nlinarith
  have hhigh : (2 * num : ℚ) ≤ (2 * roundHalfEven num den + 1) * den := by exact_mod_cast hbounds.1
  have hlow : (2 * roundHalfEven num den * den : ℚ) ≤ 2 * num + den := by exact_mod_cast hbounds.2
  rw [abs_le]
  constructor
  · have : (num : ℚ) / den ≤ roundHalfEven num den + 1 / 2 := by
      rw [div_le_iff₀ hpos]
      linarith
    linarith
  · have : (roundHalfEven num den - 1 / 2 : ℚ) ≤ num / den := by
      rw [le_div_iff₀ hpos]
      linarith
    linarith

/-- Equal quotients are rounded alike. -/
theorem roundHalfEven_congr (hden : 0 < den) (hden' : 0 < den')
    (h : num * den' = num' * den) : roundHalfEven num den = roundHalfEven num' den' := by
  rw [← roundHalfEven_mul_right hden' num den, h, Nat.mul_comm den den',
    roundHalfEven_mul_right hden]

end Rounding

/-! ## Powers -/

/-- A power with a whole exponent, in two ways. -/
theorem pow_toNat {base : ℚ} {e : Int} (he : 0 ≤ e) : base ^ e.toNat = base ^ e := by
  rw [← zpow_natCast, Int.toNat_of_nonneg he]

/-- The quotient `num / den` scaled by `base ^ -e`, as a pair of whole numbers. -/
def scaled (base num den : Nat) (e : Int) : Nat × Nat :=
  if e < 0 then (num * base ^ (-e).toNat, den) else (num, den * base ^ e.toNat)

section Scaled

variable {base num den : Nat}

theorem scaled_den_pos (hbase : 0 < base) (num : Nat) (hden : 0 < den) (e : Int) :
    0 < (scaled base num den e).2 := by
  rw [scaled]
  split
  · exact hden
  · exact Nat.mul_pos hden (Nat.pow_pos hbase)

theorem scaled_value (hbase : 0 < base) (e : Int) :
    ((scaled base num den e).1 : ℚ) / (scaled base num den e).2 = num / den / (base : ℚ) ^ e := by
  have hpos : (0 : ℚ) < (base : ℚ) ^ e := zpow_pos (Nat.cast_pos.2 hbase) e
  rw [scaled]
  split
  · rename_i he
    push_cast
    rw [pow_toNat (by omega), zpow_neg]
    field_simp
  · rename_i he
    push_cast
    rw [pow_toNat (by omega), div_div]

/-- The nearest whole number to `num / den` scaled by `base ^ -e`. -/
def rounded (base num den : Nat) (e : Int) : Nat :=
  roundHalfEven (scaled base num den e).1 (scaled base num den e).2

/-- A quotient is at most half a step `base ^ e` away from the `rounded` one. -/
theorem abs_rounded_sub_le (hbase : 0 < base) (num : Nat) (hden : 0 < den) (e : Int) :
    |rounded base num den e * (base : ℚ) ^ e - num / den| ≤ (base : ℚ) ^ e / 2 := by
  have hpos : (0 : ℚ) < (base : ℚ) ^ e := zpow_pos (Nat.cast_pos.2 hbase) e
  have hround :=
    abs_roundHalfEven_sub_le (scaled base num den e).1 (scaled_den_pos hbase num hden e)
  rw [scaled_value hbase] at hround
  calc |rounded base num den e * (base : ℚ) ^ e - num / den|
      = |(rounded base num den e - num / den / (base : ℚ) ^ e) * (base : ℚ) ^ e| := by
        congr 1
        field_simp
    _ = |rounded base num den e - num / den / (base : ℚ) ^ e| * (base : ℚ) ^ e := by
        rw [abs_mul, abs_of_pos hpos]
    _ ≤ 1 / 2 * (base : ℚ) ^ e := mul_le_mul_of_nonneg_right hround hpos.le
    _ = (base : ℚ) ^ e / 2 := by ring

/-- The whole number of steps less than half a step away is the rounded one. -/
theorem rounded_eq (hbase : 0 < base) (hden : 0 < den) {m : Nat} {e : Int}
    (h : |(num : ℚ) / den - m * (base : ℚ) ^ e| < (base : ℚ) ^ e / 2) :
    rounded base num den e = m := by
  have hpos : (0 : ℚ) < (base : ℚ) ^ e := zpow_pos (Nat.cast_pos.2 hbase) e
  apply roundHalfEven_eq (scaled_den_pos hbase num hden e)
  rw [scaled_value hbase]
  calc |(num : ℚ) / den / (base : ℚ) ^ e - m|
      = |((num : ℚ) / den - m * (base : ℚ) ^ e) / (base : ℚ) ^ e| := by
        congr 1
        field_simp
    _ = |(num : ℚ) / den - m * (base : ℚ) ^ e| / (base : ℚ) ^ e := by rw [abs_div, abs_of_pos hpos]
    _ < 1 / 2 := by
        rw [div_lt_iff₀ hpos]
        linarith

/-- Quotients of one value are rounded alike. -/
theorem rounded_congr (hbase : 0 < base) (hden : 0 < den) {num' den' : Nat} (hden' : 0 < den')
    (h : num * den' = num' * den) (e : Int) :
    rounded base num den e = rounded base num' den' e := by
  apply roundHalfEven_congr (scaled_den_pos hbase num hden e) (scaled_den_pos hbase num' hden' e)
  simp only [scaled]
  split
  · rw [Nat.mul_right_comm, h, Nat.mul_right_comm]
  · rw [← Nat.mul_assoc, h, Nat.mul_assoc]

end Scaled

namespace Binary64

/-! ## Exponents -/

/-- The number `x` has a mantissa of 53 digits at `2 ^ e`, or `e` is the least exponent. -/
structure IsExponent (x : ℚ) (e : Int) : Prop where
  least : -1074 ≤ e
  below : x < 2 ^ (e + 53)
  above : e = -1074 ∨ 2 ^ (e + 52) ≤ x

section Exponents

variable {x : ℚ} {e e' : Int} {num den num' den' : Nat}

theorem IsExponent.le (h : IsExponent x e) (h' : IsExponent x e') : e' ≤ e := by
  rcases h'.above with hleast | habove
  · rw [hleast]
    exact h.least
  · have hlt := (zpow_lt_zpow_iff_right₀ (by norm_num : (1 : ℚ) < 2)).1
      (lt_of_le_of_lt habove h.below)
    omega

/-- A number has one binary exponent. -/
theorem IsExponent.unique (h : IsExponent x e) (h' : IsExponent x e') : e = e' :=
  le_antisymm (h'.le h) (h.le h')

/-- A quotient lies between powers of two that `Nat.log2` of its parts gives. -/
theorem log2_bounds (hnum : 0 < num) (hden : 0 < den) :
    (2 : ℚ) ^ ((num.log2 : Int) - den.log2 - 1) < num / den ∧
      (num : ℚ) / den < 2 ^ ((num.log2 : Int) - den.log2 + 1) := by
  have hpos : (0 : ℚ) < den := Nat.cast_pos.2 hden
  have htwo : (2 : ℚ) ≠ 0 := by norm_num
  have hnum_low : (2 : ℚ) ^ (num.log2 : Int) ≤ num := by
    rw [zpow_natCast]
    exact_mod_cast Nat.log2_self_le (Nat.ne_of_gt hnum)
  have hden_low : (2 : ℚ) ^ (den.log2 : Int) ≤ den := by
    rw [zpow_natCast]
    exact_mod_cast Nat.log2_self_le (Nat.ne_of_gt hden)
  have hnum_high : (num : ℚ) < 2 ^ ((num.log2 : Int) + 1) := by
    rw [← Nat.cast_succ, zpow_natCast]
    exact_mod_cast Nat.lt_log2_self
  have hden_high : (den : ℚ) < 2 ^ ((den.log2 : Int) + 1) := by
    rw [← Nat.cast_succ, zpow_natCast]
    exact_mod_cast Nat.lt_log2_self
  -- each bound of the quotient takes one bound of the numerator and one of the denominator
  constructor
  · rw [lt_div_iff₀ hpos]
    calc (2 : ℚ) ^ ((num.log2 : Int) - den.log2 - 1) * den
        < 2 ^ ((num.log2 : Int) - den.log2 - 1) * 2 ^ ((den.log2 : Int) + 1) :=
          mul_lt_mul_of_pos_left hden_high (zpow_pos (by norm_num) _)
      _ = 2 ^ (num.log2 : Int) := by
          rw [← zpow_add₀ htwo]
          congr 1
          ring
      _ ≤ num := hnum_low
  · rw [div_lt_iff₀ hpos]
    calc (num : ℚ) < 2 ^ ((num.log2 : Int) + 1) := hnum_high
      _ = 2 ^ ((num.log2 : Int) - den.log2 + 1) * 2 ^ (den.log2 : Int) := by
          rw [← zpow_add₀ htwo]
          congr 1
          ring
      _ ≤ 2 ^ ((num.log2 : Int) - den.log2 + 1) * den :=
          mul_le_mul_of_nonneg_left hden_low (zpow_pos (by norm_num) _).le

/-- A comparison of whole numbers that compares a quotient with a power of two. -/
theorem short_iff (num : Nat) (hden : 0 < den) (c : Nat) (g : Int) :
    (if g < 0 then num * Nat.pow 2 (-g).toNat < Nat.pow 2 c * den
      else num < Nat.pow 2 c * den * Nat.pow 2 g.toNat) ↔ (num : ℚ) / den < 2 ^ (g + c) := by
  have hpos : (0 : ℚ) < den := Nat.cast_pos.2 hden
  have hpow : (0 : ℚ) < 2 ^ g := zpow_pos (by norm_num) g
  rw [zpow_add₀ (by norm_num : (2 : ℚ) ≠ 0), zpow_natCast, div_lt_iff₀ hpos]
  -- a negative power of two stands on the other side, where it is a whole number
  split
  · rename_i hg
    rw [← Nat.cast_lt (α := ℚ)]
    simp only [Nat.pow_eq]
    push_cast
    rw [pow_toNat (by omega), zpow_neg, ← div_eq_mul_inv, div_lt_iff₀ hpow]
    constructor
    · intro h
      linarith
    · intro h
      linarith
  · rename_i hg
    rw [← Nat.cast_lt (α := ℚ)]
    simp only [Nat.pow_eq]
    push_cast
    rw [pow_toNat (by omega)]
    constructor
    · intro h
      linarith
    · intro h
      linarith

/-- Before the least exponent is taken into account, both bounds hold. -/
theorem exponentFor_eq (hnum : 0 < num) (hden : 0 < den) :
    ∃ e : Int, exponentFor num den = max (-1074) e ∧
      (num : ℚ) / den < 2 ^ (e + 53) ∧ (2 : ℚ) ^ (e + 52) ≤ num / den := by
  obtain ⟨hlow, hhigh⟩ := log2_bounds hnum hden
  have hshort := short_iff num hden 52 ((num.log2 : Int) - den.log2 - 52)
  unfold exponentFor minExponent
  simp only
  by_cases hlt : (num : ℚ) / den < 2 ^ ((num.log2 : Int) - den.log2 - 52 + (52 : Nat))
  · rw [if_pos (hshort.2 hlt)]
    refine ⟨_, rfl, ?_, ?_⟩
    · convert hlt using 2
      push_cast
      ring
    · rw [show (num.log2 : Int) - den.log2 - 52 - 1 + 52 = num.log2 - den.log2 - 1 by ring]
      exact hlow.le
  · rw [if_neg (mt hshort.1 hlt)]
    refine ⟨_, rfl, ?_, ?_⟩
    · convert hhigh using 2
      ring
    · exact not_lt.1 hlt

/-- The exponent that `exponentFor` computes has `IsExponent`. -/
theorem isExponent_exponentFor (hnum : 0 < num) (hden : 0 < den) :
    IsExponent ((num : ℚ) / den) (exponentFor num den) := by
  obtain ⟨e, he, hbelow, habove⟩ := exponentFor_eq hnum hden
  rw [he]
  rcases le_total (-1074) e with hle | hge
  · rw [max_eq_right hle]
    exact ⟨hle, hbelow, Or.inr habove⟩
  · rw [max_eq_left hge]
    refine ⟨le_rfl, lt_of_lt_of_le hbelow ?_, Or.inl rfl⟩
    exact zpow_le_zpow_right₀ (by norm_num) (by omega)

end Exponents

/-! ## Quotients -/

section Quotients

variable {negative : Bool} {num den num' den' m : Nat} {e : Int}

theorem ofRatio_eq (hnum : 0 < num) (hden : 0 < den) (negative : Bool) :
    ofRatio negative num den =
      pack negative (rounded 2 num den (exponentFor num den)) (exponentFor num den) := by
  have hzero : ¬(num == 0 || den == 0) = true := by
    simp [Nat.ne_of_gt hnum, Nat.ne_of_gt hden]
  rw [ofRatio, if_neg hzero, rounded, scaled]
  simp only [Nat.pow_eq]
  split
  · rfl
  · rfl

/-- The number `ofRatio` depends on the value of the quotient alone. -/
theorem ofRatio_congr (hnum : 0 < num) (hden : 0 < den) (hden' : 0 < den')
    (h : num * den' = num' * den) : ofRatio negative num den = ofRatio negative num' den' := by
  have hnum' : 0 < num' := Nat.pos_of_mul_pos_right (h ▸ Nat.mul_pos hnum hden')
  have hvalue : (num : ℚ) / den = num' / den' := by
    rw [div_eq_div_iff (Nat.cast_ne_zero.2 hden.ne') (Nat.cast_ne_zero.2 hden'.ne')]
    exact_mod_cast h
  have he : exponentFor num den = exponentFor num' den' :=
    (isExponent_exponentFor hnum hden).unique (hvalue ▸ isExponent_exponentFor hnum' hden')
  rw [ofRatio_eq hnum hden, ofRatio_eq hnum' hden', he, rounded_congr (by decide) hden hden' h]

end Quotients

/-! ## Canonical numbers -/

/-- The parts of a finite number in range: a mantissa of at most 53 digits, which has all of them
unless the exponent is the least one. -/
structure InRange (m : Nat) (e : Int) : Prop where
  mantissa : m < 2 ^ 53
  least : -1074 ≤ e
  largest : e ≤ 971
  normal : e = -1074 ∨ 2 ^ 52 ≤ m

/-- A number whose parts are those of one that has 64 binary digits. -/
def IsCanonical : Binary64 → Prop
  | finite _ m e => InRange m e
  | infinite _ => True
  | nan => True

/-- The value `m * 2 ^ e` of a mantissa with an exponent. -/
def value (m : Nat) (e : Int) : ℚ := m * 2 ^ e

/-- The number `x` agrees with `y` to sixteen digits. -/
def IsNear (x y : ℚ) : Prop := |x - y| ≤ y / (2 * 10 ^ 16)

section Canonical

variable {negative : Bool} {num den m : Nat} {e : Int} {x : ℚ}

theorem pack_eq_finite (hm : 0 < m) (h : InRange m e) :
    pack negative m e = finite negative m e := by
  have hpow : (m == Nat.pow 2 53) = false := beq_eq_false_iff_ne.2 (Nat.ne_of_lt h.mantissa)
  have hle := h.largest
  rw [pack, if_neg (by simpa using hm.ne'), hpow]
  simp only [Bool.false_eq_true, if_false, overflowExponent]
  rw [if_neg (by omega)]

/-- A mantissa that has grown by a digit. -/
theorem pack_grown (h : e < 971) : pack negative (2 ^ 53) e = finite negative (2 ^ 52) (e + 1) := by
  rw [pack, if_neg (by decide)]
  simp only [Nat.pow_eq, beq_self_eq_true, if_true, overflowExponent]
  rw [if_neg (by omega)]

theorem value_pos (hm : 0 < m) (e : Int) : 0 < value m e :=
  mul_pos (Nat.cast_pos.2 hm) (zpow_pos (by norm_num) e)

/-- The distance to what is near a number is less than half a step. -/
theorem near_lt (h : (m : ℚ) ≤ 2 ^ 53) (e : Int) : value m e / (2 * 10 ^ 16) < 2 ^ e / 2 := by
  have hpos : (0 : ℚ) < 2 ^ e := zpow_pos (by norm_num) e
  rw [value, div_lt_iff₀ (by norm_num)]
  nlinarith

/-- A power of two times the power of an exponent. -/
theorem two_pow_add (n : Nat) (e : Int) : (2 : ℚ) ^ (n + e) = 2 ^ n * 2 ^ e := by
  rw [zpow_add₀ (by norm_num), zpow_natCast]

/-- The exponent of what is near a number in range is not above that of the number, as it would lie
above all mantissas. -/
theorem IsExponent.le_of_near (h : InRange m e) (hnear : IsNear x (value m e)) {e' : Int}
    (he' : IsExponent x e') : e' ≤ e := by
  by_contra hgt
  have hpos : (0 : ℚ) < 2 ^ e := zpow_pos (by norm_num) e
  have hmantissa : (m : ℚ) + 1 ≤ 2 ^ 53 := by exact_mod_cast h.mantissa
  have habove : 2 ^ 53 * 2 ^ e ≤ x := by
    rcases he'.above with hleast | habove
    · have := h.least
      omega
    · calc (2 : ℚ) ^ 53 * 2 ^ e = 2 ^ (53 + e) := (two_pow_add 53 e).symm
        _ ≤ 2 ^ (e' + 52) := zpow_le_zpow_right₀ (by norm_num) (by omega)
        _ ≤ x := habove
  have hhalf := near_lt (le_of_lt (lt_of_lt_of_le (lt_add_one (m : ℚ)) hmantissa)) e
  have hbelow : x < value m e + 2 ^ e / 2 := by
    have := (abs_le.1 hnear).2
    linarith
  rw [value] at hbelow
  nlinarith

/-- If the exponent of what is near a number in range is below that of the number, it is the next
one, and the mantissa is the least one. -/
theorem IsExponent.eq_of_near_of_lt (h : InRange m e) (hnear : IsNear x (value m e)) {e' : Int}
    (he' : IsExponent x e') (hlt : e' < e) : e = e' + 1 ∧ m = 2 ^ 52 := by
  have hpos : (0 : ℚ) < 2 ^ e := zpow_pos (by norm_num) e
  have hnormal : 2 ^ 52 ≤ m := h.normal.resolve_left (by have := he'.least; omega)
  have hleast : (2 : ℚ) ^ 52 ≤ m := by exact_mod_cast hnormal
  have hhalf := near_lt (by exact_mod_cast h.mantissa.le : (m : ℚ) ≤ 2 ^ 53) e
  have habove : value m e - 2 ^ e / 2 < x := by
    have := (abs_le.1 hnear).1
    linarith
  rw [value] at habove
  have hbelow : ∀ n : Nat, e' + 53 ≤ n + e → x < 2 ^ n * 2 ^ e := fun n hn =>
    calc x < 2 ^ (e' + 53) := he'.below
      _ ≤ 2 ^ (n + e) := zpow_le_zpow_right₀ (by norm_num) hn
      _ = 2 ^ n * 2 ^ e := two_pow_add n e
  constructor
  · -- more than one exponent below, the number would be less than half as large
    by_contra hne
    have hfar := hbelow 51 (by omega)
    nlinarith
  · -- the number lies below the next power of two
    by_contra hne
    have hmore : (2 : ℚ) ^ 52 + 1 ≤ m := by
      have : 2 ^ 52 + 1 ≤ m := by omega
      exact_mod_cast this
    have hnext := hbelow 52 (by omega)
    nlinarith

/-- A mantissa that has grown by a digit, at the exponent below. -/
theorem value_grown (e : Int) : value (2 ^ 53) e = value (2 ^ 52) (e + 1) := by
  rw [value, value, zpow_add_one₀ (by norm_num)]
  push_cast
  ring

/-- A number `InRange` is the `ofRatio` of every quotient that `IsNear` it. -/
theorem ofRatio_near (hm : 0 < m) (h : InRange m e) (hnum : 0 < num) (hden : 0 < den)
    (hnear : IsNear (num / den) (value m e)) :
    ofRatio negative num den = finite negative m e := by
  rw [ofRatio_eq hnum hden]
  have he' := isExponent_exponentFor hnum hden
  rcases eq_or_lt_of_le (he'.le_of_near h hnear) with he | hlt
  · have hle : (m : ℚ) ≤ 2 ^ 53 := by exact_mod_cast h.mantissa.le
    rw [he, rounded_eq (by decide) hden (lt_of_le_of_lt hnear (near_lt hle e)), pack_eq_finite hm h]
  · obtain ⟨he, rfl⟩ := he'.eq_of_near_of_lt h hnear hlt
    generalize exponentFor num den = e' at he
    subst he
    have hle := h.largest
    -- at the exponent below, the mantissa is as large as no mantissa may be
    rw [← value_grown] at hnear
    have hmost : ((2 ^ 53 : Nat) : ℚ) ≤ 2 ^ 53 := by
      push_cast
      exact le_rfl
    rw [rounded_eq (by decide) hden (lt_of_le_of_lt hnear (near_lt hmost e')),
      pack_grown (by omega)]

end Canonical

/-! ## Whole numbers -/

/-- The exact value of a number whose exponent is not positive. -/
theorem ratio?_finite_neg (m k : Nat) : (finite false m (-k)).ratio? = some ((m : Int), 2 ^ k) := by
  simp only [ratio?, Bool.false_eq_true, if_false, Nat.pow_eq, Int.neg_neg, Int.toNat_natCast]
  rcases Nat.eq_zero_or_pos k with rfl | hk
  · simp
  · have hneg : (-(k : Int)) < 0 := by omega
    rw [if_pos hneg, if_pos hneg]

/-- A whole number of at most 53 binary digits is a binary number itself. -/
theorem ratio?_ofInt {n : Nat} (h : n < 2 ^ 53) :
    ∃ den, 0 < den ∧ (ofInt n).ratio? = some (((n * den : Nat) : Int), den) := by
  rcases Nat.eq_zero_or_pos n with rfl | hn
  · obtain ⟨k, hk⟩ : ∃ k : Nat, minExponent = -(k : Int) := ⟨1074, rfl⟩
    have hzero : ofInt (0 : Nat) = finite false 0 (-k) := congrArg (finite false 0) hk
    exact ⟨2 ^ k, Nat.pow_pos (by decide), by rw [hzero, ratio?_finite_neg, Nat.zero_mul]⟩
  · -- the mantissa is filled up with zeros
    obtain ⟨k, hk⟩ : ∃ k, n.log2 + k = 52 :=
      Nat.le.dest (Nat.le_of_lt_succ ((Nat.log2_lt hn.ne').2 h))
    have hlow : 2 ^ 52 ≤ n * 2 ^ k := by
      rw [← hk, Nat.pow_add]
      exact Nat.mul_le_mul_right _ (Nat.log2_self_le hn.ne')
    have hhigh : n * 2 ^ k < 2 ^ 53 := by
      calc n * 2 ^ k < 2 ^ (n.log2 + 1) * 2 ^ k :=
            Nat.mul_lt_mul_of_pos_right Nat.lt_log2_self (Nat.pow_pos (by decide))
        _ = 2 ^ 53 := by rw [← Nat.pow_add, Nat.add_right_comm, hk]
    have hrange : InRange (n * 2 ^ k) (-k) := ⟨hhigh, by omega, by omega, Or.inr hlow⟩
    have hvalue : value (n * 2 ^ k) (-k) = (n : ℚ) / (1 : Nat) := by
      rw [value, zpow_neg, zpow_natCast]
      push_cast
      field_simp
    have hnear : IsNear ((n : ℚ) / (1 : Nat)) (value (n * 2 ^ k) (-k)) := by
      rw [IsNear, hvalue, sub_self, abs_zero]
      positivity
    have hfinite : ofInt n = finite false (n * 2 ^ k) (-k) := by
      have hsign : decide ((n : Int) < 0) = false := decide_eq_false (by omega)
      rw [ofInt, hsign, Int.natAbs_natCast]
      exact ofRatio_near (Nat.lt_of_lt_of_le (Nat.pow_pos (by decide)) hlow) hrange hn
        Nat.one_pos hnear
    exact ⟨2 ^ k, Nat.pow_pos (by decide), hfinite ▸ ratio?_finite_neg _ k⟩
end Binary64

end FileClerk.Number
