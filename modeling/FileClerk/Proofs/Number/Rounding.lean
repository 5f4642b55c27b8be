import Mathlib.Algebra.Group.Nat.Defs
import Mathlib.Tactic.ByContra
import FileClerk.Number.Literal
import FileClerk.Number.Binary64

/-!
# Sizes of rounded numbers

The number of decimal digits of a number places it between two powers of ten (`digitCount_le_iff`).
A run of digits stands for less than the power of ten of its length (`ofDigits_lt`), and rounding to
leading digits at most doubles a number (`roundToDigits_le`).
-/

set_option autoImplicit false

namespace FileClerk.Number

/-- A bound `k` on `digitCount n` is the bound `10 ^ k` on `n`. -/
theorem digitCount_le_iff {k : Nat} (hk : 0 < k) (n : Nat) : digitCount n ≤ k ↔ n < 10 ^ k := by
  induction k generalizing n with
  | zero => cases hk
  | succ k ih =>
      unfold digitCount
      split
      · rename_i hn
        have hpow : 10 ^ 1 ≤ 10 ^ (k + 1) := Nat.pow_le_pow_right (by decide) (by omega)
        constructor
        · intro _
          omega
        · intro _
          omega
      · rename_i hn
        have hpow : n / 10 < 10 ^ k ↔ n < 10 ^ (k + 1) := by
          rw [Nat.div_lt_iff_lt_mul (by decide), Nat.pow_succ]
        cases k with
        | zero =>
            -- `n` has two digits or more
            have hpos : 0 < digitCount (n / 10) := by
              unfold digitCount
              split
              · decide
              · exact Nat.succ_pos _
            constructor
            · intro _
              omega
            · intro _
              omega
        | succ k =>
            rw [Nat.add_le_add_iff_right, ih (Nat.succ_pos k), hpow]

/-- The leading digit of a number other than zero stands at the place of its digit count. -/
theorem pow_le_of_digitCount {n : Nat} (hn : 0 < n) : 10 ^ (digitCount n - 1) ≤ n := by
  by_contra hlt
  rw [Nat.not_le] at hlt
  by_cases hone : digitCount n - 1 = 0
  · rw [hone] at hlt
    omega
  · have hle := (digitCount_le_iff (Nat.pos_of_ne_zero hone) n).2 hlt
    omega

theorem roundHalfEven_le (num den : Nat) : roundHalfEven num den ≤ num / den + 1 := by
  have hmod := Nat.mod_lt (num / den) (by decide : 0 < 2)
  simp only [roundHalfEven]
  split
  · omega
  · split
    · omega
    · omega

/-- The result of `roundToDigits` is at most twice the number. -/
theorem roundToDigits_le {digits : Nat} (hdigits : 0 < digits) (n : Nat) :
    roundToDigits digits n ≤ 2 * n := by
  by_cases hn : n = 0
  · subst hn
    have hunit : 10 ^ (digitCount 0 - digits) = 1 := by
      have hzero : digitCount 0 = 1 := by simp [digitCount]
      rw [hzero, Nat.sub_eq_zero_of_le (by omega), Nat.pow_zero]
    simp only [roundToDigits, Nat.pow_eq, hunit]
    decide
  · simp only [roundToDigits, Nat.pow_eq]
    have hunit : 10 ^ (digitCount n - digits) ≤ n := by
      calc 10 ^ (digitCount n - digits) ≤ 10 ^ (digitCount n - 1) :=
            Nat.pow_le_pow_right (by decide) (by omega)
        _ ≤ n := pow_le_of_digitCount (Nat.pos_of_ne_zero hn)
    -- the multiples of the unit on both sides of the number are no more than the unit away
    generalize 10 ^ (digitCount n - digits) = unit at hunit
    calc roundHalfEven n unit * unit ≤ (n / unit + 1) * unit :=
          Nat.mul_le_mul_right unit (roundHalfEven_le n unit)
      _ = n / unit * unit + unit := Nat.succ_mul _ _
      _ ≤ n + n := Nat.add_le_add (Nat.div_mul_le_self n unit) hunit
      _ = 2 * n := (Nat.two_mul n).symm

/-- The value `ofDigits base digits` is below `base ^ digits.length`. -/
theorem ofDigits_lt {base : Nat} {digits : List Nat} (h : ∀ d ∈ digits, d < base) :
    ofDigits base digits < base ^ digits.length := by
  -- the induction needs the value that was read before as well
  have hfold : ∀ (digits : List Nat) (start : Nat), (∀ d ∈ digits, d < base) →
      digits.foldl (fun n d => base * n + d) start < (start + 1) * base ^ digits.length := by
    intro digits
    induction digits with
    | nil =>
        intro start _
        simp
    | cons d rest ih =>
        intro start hall
        have hd := hall d List.mem_cons_self
        have hrest := ih (base * start + d) fun e he => hall e (List.mem_cons_of_mem _ he)
        rw [List.foldl_cons, List.length_cons, Nat.pow_succ']
        calc rest.foldl (fun n d => base * n + d) (base * start + d)
            < (base * start + d + 1) * base ^ rest.length := hrest
          _ ≤ (start + 1) * base * base ^ rest.length := by
              apply Nat.mul_le_mul_right
              rw [Nat.add_mul, Nat.one_mul, Nat.mul_comm start base]
              omega
          _ = (start + 1) * (base * base ^ rest.length) := Nat.mul_assoc _ _ _
  have h0 := hfold digits 0 h
  simpa [ofDigits] using h0

end FileClerk.Number
