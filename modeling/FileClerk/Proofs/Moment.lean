import Mathlib.Algebra.BigOperators.Group.List.Basic
import Mathlib.Algebra.Ring.Nat
import FileClerk.Moment

/-!
# Stamps

The stamp of a moment puts the parts of its date and its time of day side by side. Every part but
the year has two digits, since the calendar gives a month of the year, a day of the month
(`Date.ofDays_bounds`) and a time of the day. The year is written as it is, so a stamp has fourteen
digits exactly in the years from 1000 to 9999 (`Moment.length_stamp_eq_iff`).
-/

set_option autoImplicit false

namespace FileClerk

/-! ## Dates -/

namespace Date

/-- Day `n` lies in the year `yearOfDay n`. -/
theorem daysBeforeYear_yearOfDay (n : Nat) :
    daysBeforeYear (yearOfDay n) ≤ n ∧ n < daysBeforeYear (yearOfDay n + 1) := by
  unfold yearOfDay
  simp only
  split
  · rename_i hearly
    simp only [daysBeforeYear] at hearly ⊢
    omega
  · split
    · rename_i hearly hlate
      simp only [daysBeforeYear] at hearly hlate ⊢
      omega
    · rename_i hearly hlate
      exact ⟨Nat.le_of_not_lt hearly, Nat.lt_of_not_le hlate⟩

/-- A year is as long as its months. -/
theorem daysBeforeYear_add_one {year : Nat} (h : 0 < year) :
    daysBeforeYear (year + 1) = daysBeforeYear year + (monthLengths year).sum := by
  obtain ⟨past, rfl⟩ := Nat.exists_eq_add_one_of_ne_zero (Nat.ne_of_gt h)
  have hsum : (monthLengths (past + 1)).sum = 365 + if isLeap (past + 1) then 1 else 0 := by
    unfold monthLengths
    cases isLeap (past + 1) with
    | true => rfl
    | false => rfl
  have hdiv : ∀ d, (past + 1) / d = past / d + if (past + 1) % d = 0 then 1 else 0 := by
    intro d
    rw [Nat.succ_div]
    simp only [Nat.dvd_iff_mod_eq_zero]
  have hcentury : (past + 1) % 100 = 0 → (past + 1) % 4 = 0 := by omega
  have hfourth : (past + 1) % 400 = 0 → (past + 1) % 100 = 0 := by omega
  have hle : past / 100 ≤ past / 4 := Nat.div_le_div_left (by decide) (by decide)
  rw [hsum]
  simp only [daysBeforeYear, isLeap, Bool.and_eq_true, Bool.or_eq_true, beq_iff_eq, bne_iff_ne,
    Nat.add_sub_cancel, hdiv]
  generalize past / 4 = fourths at *
  generalize past / 100 = centuries at *
  generalize past / 400 = eras at *
  split_ifs <;> omega

/-- The month and the day of `monthAndDay` lie in the months that are looked through. -/
theorem monthAndDay_bounds {lengths : List Nat} {n : Nat} (h : n < lengths.sum) (month : Nat) :
    (month ≤ (monthAndDay lengths month n).1 ∧
        (monthAndDay lengths month n).1 < month + lengths.length) ∧
      ∃ length ∈ lengths, (monthAndDay lengths month n).2 ≤ length := by
  induction lengths generalizing n month with
  | nil => cases h
  | cons length rest ih =>
      rw [monthAndDay]
      split
      · rename_i hn
        refine ⟨⟨Nat.le_refl month, ?_⟩, length, List.mem_cons_self, hn⟩
        rw [List.length_cons]
        omega
      · rename_i hn
        rw [List.sum_cons] at h
        obtain ⟨⟨hfirst, hlast⟩, longest, hmem, hday⟩ := ih (n := n - length) (by omega) (month + 1)
        refine ⟨⟨by omega, ?_⟩, longest, List.mem_cons_of_mem _ hmem, hday⟩
        rw [List.length_cons]
        omega

theorem yearOfDay_pos (n : Nat) : 0 < yearOfDay n := by
  unfold yearOfDay
  simp only
  split
  · rename_i hearly
    simp only [daysBeforeYear] at hearly
    omega
  · split
    · omega
    · omega

theorem le_of_mem_monthLengths {year length : Nat} (h : length ∈ monthLengths year) :
    length ≤ 31 := by
  unfold monthLengths at h
  revert length
  cases isLeap year with
  | true => decide
  | false => decide

/-- A `Date` has one of twelve months, and no month is longer than 31 days. -/
theorem ofDays_bounds (n : Nat) : (ofDays n).month ≤ 12 ∧ (ofDays n).day ≤ 31 := by
  obtain ⟨hfirst, hlast⟩ := daysBeforeYear_yearOfDay n
  rw [daysBeforeYear_add_one (yearOfDay_pos n)] at hlast
  have hin : n - daysBeforeYear (yearOfDay n) < (monthLengths (yearOfDay n)).sum := by omega
  obtain ⟨⟨-, hmonth⟩, length, hmem, hday⟩ := monthAndDay_bounds hin 1
  exact ⟨Nat.le_of_lt_succ hmonth, Nat.le_trans hday (le_of_mem_monthLengths hmem)⟩

end Date

/-! ## Digits -/

theorem isDigit_of_mem_toString {n : Nat} {c : Char} (h : c ∈ (toString n).toList) :
    c.isDigit = true := by
  have hdigits : (toString n).toList = Nat.toDigits 10 n := String.toList_ofList
  rw [hdigits] at h
  exact Nat.isDigit_of_mem_toDigits (by decide) (by decide) h

theorem isDigit_of_mem_zeroPadded {width n : Nat} {c : Char} (h : c ∈ (zeroPadded width n).toList) :
    c.isDigit = true := by
  rw [zeroPadded, String.toList_append, String.toList_ofList, List.mem_append] at h
  rcases h with hzero | hdigit
  · rw [List.eq_of_mem_replicate hzero]
    rfl
  · exact isDigit_of_mem_toString hdigit

/-- A number has as many digits as `zeroPadded` pads it to, unless it has more by itself. -/
theorem length_zeroPadded {width n : Nat} (hwidth : 0 < width) (h : n < 10 ^ width) :
    (zeroPadded width n).length = width := by
  have hle : (toString n).length ≤ width := (Nat.length_repr_le_iff hwidth).2 h
  rw [zeroPadded, String.length_append, String.length_ofList, List.length_replicate]
  omega

/-! ## Stamps -/

namespace Moment

/-- The time of day is one of a day of 24 hours. -/
theorem time_bounds (m : Moment) : m.hour < 24 ∧ m.minute < 60 ∧ m.secs < 60 := by
  have hday : m.secondOfDay < 86400 := by
    rw [secondOfDay, Nat.div_lt_iff_lt_mul (by decide)]
    exact Nat.mod_lt _ (by decide)
  refine ⟨?_, Nat.mod_lt _ (by decide), Nat.mod_lt _ (by decide)⟩
  rw [hour]
  omega

/-- A stamp consists of digits. -/
theorem isDigit_of_mem_stamp {m : Moment} {c : Char} (h : c ∈ m.stamp.toList) :
    c.isDigit = true := by
  simp only [stamp, String.toList_append, List.mem_append, or_assoc] at h
  rcases h with hyear | hmonth | hday | hhour | hminute | hsecs
  · exact isDigit_of_mem_toString hyear
  · exact isDigit_of_mem_zeroPadded hmonth
  · exact isDigit_of_mem_zeroPadded hday
  · exact isDigit_of_mem_zeroPadded hhour
  · exact isDigit_of_mem_zeroPadded hminute
  · exact isDigit_of_mem_zeroPadded hsecs

/-- All parts of a `stamp` but the year have two digits. -/
theorem length_stamp (m : Moment) : m.stamp.length = (toString m.date.year).length + 10 := by
  obtain ⟨hmonth, hday⟩ : m.date.month ≤ 12 ∧ m.date.day ≤ 31 := Date.ofDays_bounds _
  obtain ⟨hhour, hminute, hsecs⟩ := m.time_bounds
  have htwo : ∀ {n : Nat}, n < 100 → (zeroPadded 2 n).length = 2 :=
    fun h => length_zeroPadded (by decide) h
  rw [stamp, String.length_append, String.length_append, String.length_append,
    String.length_append, String.length_append, htwo (by omega), htwo (by omega),
    htwo (by omega), htwo (by omega), htwo (by omega)]

/-- A `stamp` has fourteen digits exactly in the years of four digits. -/
theorem length_stamp_eq_iff (m : Moment) :
    m.stamp.length = 14 ↔ 1000 ≤ m.date.year ∧ m.date.year ≤ 9999 := by
  have hfour : (toString m.date.year).length ≤ 4 ↔ m.date.year < 10 ^ 4 :=
    Nat.length_repr_le_iff (by decide)
  have hthree : (toString m.date.year).length ≤ 3 ↔ m.date.year < 10 ^ 3 :=
    Nat.length_repr_le_iff (by decide)
  rw [length_stamp]
  omega

end Moment

end FileClerk
