import Mathlib.Data.List.Basic
import Mathlib.Tactic.Ring
import FileClerk.Number.Literal
import FileClerk.Text.Basic

/-!
# Digits read back

A number that is written in a base of at most sixteen is read as what it is (`natural?_toDigits`),
with zeros in front of it as well (`natural?_hex`). The value of a run of decimal digits is that of
its characters one by one (`decimalValue_eq`), so a run may be taken apart (`decimalValue_append`),
and zeros behind it are powers of ten (`decimalValue_append_zeros`).
-/

set_option autoImplicit false

namespace FileClerk.Number

open FileClerk.Text

/-! ## Runs of digits -/

/-- The sum goes on from `start`: what `ofDigits` folds is additive in the value of the digits
before. -/
theorem foldl_digits (base start : Nat) (digits : List Nat) :
    digits.foldl (fun n d => base * n + d) start =
      start * base ^ digits.length + ofDigits base digits := by
  induction digits generalizing start with
  | nil => simp [ofDigits]
  | cons d rest ih =>
      rw [ofDigits, List.foldl_cons, List.foldl_cons, ih, ih (base * 0 + d), List.length_cons,
        pow_succ]
      ring

/-- A run of digits in two parts. -/
theorem ofDigits_append (base : Nat) (digits more : List Nat) :
    ofDigits base (digits ++ more) = ofDigits base digits * base ^ more.length +
      ofDigits base more := by
  rw [ofDigits, List.foldl_append, foldl_digits base _ more]
  rfl

/-! ## Digits of a base -/

/-- The digit that is written for a value has that value. -/
theorem digitOf?_digitChar {base d : Nat} (hbase : base ≤ 16) (hd : d < base) :
    digitOf? base d.digitChar = some d := by
  have hvalue : ∀ d < 16, digitOf? 16 (Nat.digitChar d) = some d := by decide
  have hsixteen := hvalue d (Nat.lt_of_lt_of_le hd hbase)
  rw [digitOf?, Option.filter_eq_some_iff] at hsixteen ⊢
  exact ⟨hsixteen.1, decide_eq_true hd⟩

section Natural

variable {base m : Nat} {s : List Char}

/-- A further digit counts as much as it is worth. -/
theorem natural?_append_singleton {c : Char} {d : Nat} (hs : natural? base s = some m)
    (hc : digitOf? base c = some d) : natural? base (s ++ [c]) = some (base * m + d) := by
  simp only [natural?, Option.map_eq_some_iff] at hs ⊢
  obtain ⟨digits, hdigits, rfl⟩ := hs
  refine ⟨digits ++ [d], ?_, ?_⟩
  · simp [List.mapM_append, hdigits, hc]
  · rw [ofDigits, List.foldl_append]
    rfl

/-- The digits `toDigits base n` are read by `natural?` as `n`. -/
theorem natural?_toDigits (hbase : 1 < base) (hsmall : base ≤ 16) (n : Nat) :
    natural? base (Nat.toDigits base n) = some n := by
  induction n using Nat.strong_induction_on with
  | _ n ih =>
      rw [Nat.toDigits_eq_if hbase]
      split
      · rename_i hn
        simp [natural?, digitOf?_digitChar hsmall hn, ofDigits]
      · rename_i hn
        have hless : n / base < n := Nat.div_lt_self (by omega) hbase
        have hlast := digitOf?_digitChar hsmall (Nat.mod_lt n (Nat.zero_lt_of_lt hbase))
        rw [natural?_append_singleton (ih _ hless) hlast, Nat.div_add_mod]

/-- Zeros in front change nothing. -/
theorem natural?_zeros_append (hbase : 0 < base) (k : Nat) (hs : natural? base s = some m) :
    natural? base (List.replicate k '0' ++ s) = some m := by
  have hzero : digitOf? base '0' = some 0 := by simp [digitOf?, hbase]
  induction k with
  | zero => exact hs
  | succ k ih =>
      simp only [natural?, Option.map_eq_some_iff] at ih ⊢
      obtain ⟨digits, hdigits, hvalue⟩ := ih
      refine ⟨0 :: digits, ?_, ?_⟩
      · rw [List.replicate_succ, List.cons_append, List.mapM_cons, hzero, hdigits]
        rfl
      · rw [ofDigits, List.foldl_cons, Nat.mul_zero]
        exact hvalue

end Natural

/-- The text `hex width n` is read as `n`. -/
theorem natural?_hex (width n : Nat) : natural? 16 (hex width n) = some n :=
  natural?_zeros_append (by decide) _ (natural?_toDigits (by decide) (by decide) n)

/-- A number in base sixteen fills its width, if it is not too long. -/
theorem length_hex {width n : Nat} (hwidth : 0 < width) (hn : n < 16 ^ width) :
    (hex width n).length = width := by
  have hlength : (Nat.toDigits 16 n).length ≤ width :=
    (Nat.length_toDigits_le_iff (by decide) hwidth).2 hn
  simp only [hex, List.length_append, List.length_replicate]
  omega

/-! ## Decimal digits -/

section Decimal

variable {s t : List Char}

/-- A digit is worth its distance from zero. -/
theorem digitOf?_of_isDigit {c : Char} (h : c.isDigit = true) :
    digitOf? 10 c = some (c.toNat - 48) := by
  have hbound : c.toNat ≤ 57 := by
    simp only [Char.isDigit, Bool.and_eq_true, decide_eq_true_eq] at h
    exact h.2
  rw [digitOf?, if_pos h, Option.filter_some, if_pos]
  exact decide_eq_true (by omega)

/-- On digits, `decimalValue` is `ofDigitChars 10`. -/
theorem decimalValue_eq (h : ∀ c ∈ s, c.isDigit = true) :
    decimalValue s = Nat.ofDigitChars 10 s 0 := by
  have hdigits : s.filterMap (digitOf? 10) = s.map fun c => c.toNat - 48 :=
    List.filterMap_eq_map_iff_forall_eq_some.2 fun c hc => digitOf?_of_isDigit (h c hc)
  rw [decimalValue, hdigits, ofDigits, List.foldl_map, Nat.ofDigitChars_eq_foldl]
  rfl

/-- The value of the digits of a number is the number. -/
theorem decimalValue_toDigits (n : Nat) : decimalValue (Nat.toDigits 10 n) = n := by
  rw [decimalValue_eq fun c hc => Nat.isDigit_of_mem_toDigits (by decide) (by decide) hc,
    Nat.ofDigitChars_ten_toDigits]

/-- The `decimalValue` of a run of digits in two parts. -/
theorem decimalValue_append (h : ∀ c ∈ s ++ t, c.isDigit = true) :
    decimalValue (s ++ t) = decimalValue s * 10 ^ t.length + decimalValue t := by
  rw [decimalValue_eq h, decimalValue_eq fun c hc => h c (List.mem_append_left _ hc),
    decimalValue_eq fun c hc => h c (List.mem_append_right _ hc), Nat.ofDigitChars_append,
    Nat.ofDigitChars_eq_ofDigitChars_zero, Nat.mul_comm]

theorem decimalValue_zeros (k : Nat) : decimalValue (List.replicate k '0') = 0 := by
  rw [decimalValue_eq fun c hc => by rw [List.eq_of_mem_replicate hc]; rfl,
    Nat.ofDigitChars_replicate_zero, Nat.mul_zero]

theorem isDigit_of_mem_zeros {k : Nat} {c : Char} (h : c ∈ List.replicate k '0') :
    c.isDigit = true := by
  rw [List.eq_of_mem_replicate h]
  rfl

/-- Zeros in front of a run change nothing. -/
theorem decimalValue_zeros_append (h : ∀ c ∈ s, c.isDigit = true) (k : Nat) :
    decimalValue (List.replicate k '0' ++ s) = decimalValue s := by
  have hall : ∀ c ∈ List.replicate k '0' ++ s, c.isDigit = true := by
    intro c hc
    rcases List.mem_append.1 hc with hzero | hdigit
    · exact isDigit_of_mem_zeros hzero
    · exact h c hdigit
  rw [decimalValue_append hall, decimalValue_zeros, Nat.zero_mul, Nat.zero_add]

/-- Zeros behind a run are powers of ten. -/
theorem decimalValue_append_zeros (h : ∀ c ∈ s, c.isDigit = true) (k : Nat) :
    decimalValue (s ++ List.replicate k '0') = decimalValue s * 10 ^ k := by
  have hall : ∀ c ∈ s ++ List.replicate k '0', c.isDigit = true := by
    intro c hc
    rcases List.mem_append.1 hc with hdigit | hzero
    · exact h c hdigit
    · exact isDigit_of_mem_zeros hzero
  rw [decimalValue_append hall, decimalValue_zeros, List.length_replicate, Nat.add_zero]

end Decimal

end FileClerk.Number
