import FileClerk.Text.Basic

/-!
# Calendar

Dates of the Gregorian calendar from year 1 on, and the number of days before them.
-/

set_option autoImplicit false

namespace FileClerk

/-- A date of the Gregorian calendar. -/
structure Date where
  year : Nat
  month : Nat
  day : Nat
  deriving DecidableEq, Repr

namespace Date

/-- The year `year` has a leap day: every fourth year, except the centuries that 400 does not
divide. -/
def isLeap (year : Nat) : Bool := year % 4 == 0 && (year % 100 != 0 || year % 400 == 0)

/-- The lengths of the months of `year`. -/
def monthLengths (year : Nat) : List Nat :=
  [31, if isLeap year then 29 else 28, 31, 30, 31, 30, 31, 31, 30, 31, 30, 31]

/-- The number of days before the first day of `year`. -/
def daysBeforeYear (year : Nat) : Nat :=
  let past := year - 1
  365 * past + past / 4 - past / 100 + past / 400

/-- The number of days before `d`; the first day of year 1 has none before it. -/
def toDays (d : Date) : Nat :=
  daysBeforeYear d.year + ((monthLengths d.year).take (d.month - 1)).foldl (· + ·) 0 + (d.day - 1)

/-- The month and the day of the month that lie `n` days after the start of the given months, whose
lengths are listed from `month` on. -/
def monthAndDay : List Nat → Nat → Nat → Nat × Nat
  | [], month, n => (month, n + 1)
  | length :: rest, month, n =>
    if n < length then (month, n + 1) else monthAndDay rest (month + 1) (n - length)

/-- The year of the day with `n` days before it. -/
def yearOfDay (n : Nat) : Nat :=
  let guess := n * 400 / 146097 + 1
  if n < daysBeforeYear guess then guess - 1
  else if daysBeforeYear (guess + 1) ≤ n then guess + 1
  else guess

/-- The year that a day lies in, when years are counted on in both directions. The calendar repeats
itself after 400 years, which are 146097 days. -/
def yearOn (day : Int) : Int := yearOfDay (day % 146097).toNat + 400 * (day / 146097)

/-- The date with `n` days before it. -/
def ofDays (n : Nat) : Date :=
  let year := yearOfDay n
  let (month, day) := monthAndDay (monthLengths year) 1 (n - daysBeforeYear year)
  ⟨year, month, day⟩

/-- The month of `d` is one of twelve, and its day is one of that month. -/
def isValid (d : Date) : Bool :=
  1 ≤ d.year && d.year ≤ 9999 && 1 ≤ d.month && d.month ≤ 12 && 1 ≤ d.day
    && d.day ≤ (monthLengths d.year)[d.month - 1]?.getD 0

end Date

/-- The decimal digits of `n`, with leading zeros up to `width`. -/
def zeroPadded (width n : Nat) : String :=
  let digits := toString n
  String.ofList (List.replicate (width - digits.length) '0') ++ digits

/-- The form `YYYY-MM-DD` of a date. -/
def Date.text (d : Date) : String :=
  zeroPadded 4 d.year ++ "-" ++ zeroPadded 2 d.month ++ "-" ++ zeroPadded 2 d.day

end FileClerk
