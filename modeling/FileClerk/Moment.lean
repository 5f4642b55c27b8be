import FileClerk.Calendar
import FileClerk.Number.Binary64
import FileClerk.Number.Literal

/-!
# Moments

A `Moment` is a wall-clock reading in microseconds, with or without an offset from universal time.
Moments of one kind are ordered: those without an offset by their wall clocks, those with one by
the instants they denote. A moment with an offset and one without cannot be compared. An offset is a
fixed number of seconds: moments whose offset follows the rules of a time zone are not modelled.

A `FileTime` is what a file system keeps: whole seconds since 1970 and nanoseconds. It is carried as
a 64-bit binary number of seconds, from which the microseconds of a moment are rounded. Not every
file time has a moment (`FileTime.moment`); the local time is universal time.
-/

set_option autoImplicit false

namespace FileClerk

open FileClerk.Number FileClerk.Text

/-- A point in time: microseconds on the clock since the start of year 1, and the seconds by which
the clock is ahead of universal time, if that is known. -/
structure Moment where
  wall : Nat
  offset : Option Int
  deriving DecidableEq, Repr

namespace Moment

/-- Microseconds in a second. -/
def second : Nat := 1000000

/-- Microseconds in a day. -/
def day : Nat := 86400 * second

/-- The place of `m` among the moments of its kind, in microseconds. -/
def place (m : Moment) : Int := m.wall - m.offset.getD 0 * second

/-- The moment of `date` and a time of day. -/
def ofClock (date : Date) (hour minute secs micros : Nat) (offset : Option Int) : Moment :=
  ⟨date.toDays * day + ((hour * 60 + minute) * 60 + secs) * second + micros, offset⟩

/-- The date on the clock. -/
def date (m : Moment) : Date := Date.ofDays (m.wall / day)

/-- The whole seconds since midnight on the clock. -/
def secondOfDay (m : Moment) : Nat := m.wall % day / second

/-- The hour on the clock. -/
def hour (m : Moment) : Nat := m.secondOfDay / 3600

/-- The minute on the clock. -/
def minute (m : Moment) : Nat := m.secondOfDay / 60 % 60

/-- The second on the clock. -/
def secs (m : Moment) : Nat := m.secondOfDay % 60

/-- The microseconds past the second. -/
def micros (m : Moment) : Nat := m.wall % second

/-- An offset as `+hh:mm`, with seconds only if there are any. -/
def offsetText (offset : Int) : String :=
  let n := offset.natAbs
  (if offset < 0 then "-" else "+") ++ zeroPadded 2 (n / 3600) ++ ":"
    ++ zeroPadded 2 (n / 60 % 60) ++ (if n % 60 == 0 then "" else ":" ++ zeroPadded 2 (n % 60))

/-- The moment as text, with `separator` between date and time. The fraction has six digits and is
left out if it is zero. -/
def textWith (separator : String) (m : Moment) : String :=
  m.date.text ++ separator ++ zeroPadded 2 m.hour ++ ":" ++ zeroPadded 2 m.minute ++ ":"
    ++ zeroPadded 2 m.secs ++ (if m.micros == 0 then "" else "." ++ zeroPadded 6 m.micros)
    ++ (m.offset.map offsetText).getD ""

/-- The form `YYYY-MM-DDThh:mm:ss` of a moment, with fraction and offset if it has them. -/
def text (m : Moment) : String := m.textWith "T"

/-- The form `%Y%m%d%H%M%S` of a moment: fourteen digits, and fewer for a year before 1000. -/
def stamp (m : Moment) : String :=
  toString m.date.year ++ zeroPadded 2 m.date.month ++ zeroPadded 2 m.date.day
    ++ zeroPadded 2 m.hour ++ zeroPadded 2 m.minute ++ zeroPadded 2 m.secs

/-- The form `%Y-%m-%d %H:%M` of a moment. -/
def listed (m : Moment) : String :=
  toString m.date.year ++ "-" ++ zeroPadded 2 m.date.month ++ "-" ++ zeroPadded 2 m.date.day
    ++ " " ++ zeroPadded 2 m.hour ++ ":" ++ zeroPadded 2 m.minute

/-! ## Reading -/

/-- An optional fraction of a second in microseconds; further digits are cut. -/
def takeFraction (s : List Char) : Nat × List Char :=
  match afterChar? '.' s with
  | none => (0, s)
  | some rest =>
    let digits := rest.takeWhile Char.isDigit
    let six := (digits ++ List.replicate 6 '0').take 6
    (decimalValue six, rest.dropWhile Char.isDigit)

/-- The rest of a text as an offset; no text is no offset. -/
def readOffset? : List Char → Option (Option Int)
  | [] => some none
  | ['Z'] => some (some 0)
  | sign :: rest => do
    if sign != '+' && sign != '-' then none
    else
      let (hours, rest) ← takeNumber? 2 2 rest
      let rest ← afterChar? ':' rest
      let (minutes, rest) ← takeNumber? 2 2 rest
      let seconds ← match rest with
        | [] => some 0
        | ':' :: more => match takeNumber? 2 2 more with
          | some (n, []) => some n
          | _ => none
        | _ => none
      let size : Int := (hours * 60 + minutes) * 60 + seconds
      some (some (if sign == '-' then -size else size))

/-- The moment that a text in the form of the international standard denotes. -/
def ofText? (text : String) : Option Moment := do
  let (year, s) ← takeNumber? 4 4 text.toList
  let s ← afterChar? '-' s
  let (month, s) ← takeNumber? 2 2 s
  let s ← afterChar? '-' s
  let (dayOfMonth, s) ← takeNumber? 2 2 s
  let s ← afterChar? 'T' s
  let (hour, s) ← takeNumber? 2 2 s
  let s ← afterChar? ':' s
  let (minute, s) ← takeNumber? 2 2 s
  let s ← afterChar? ':' s
  let (secs, s) ← takeNumber? 2 2 s
  let (micros, s) := takeFraction s
  let offset ← readOffset? s
  let date : Date := ⟨year, month, dayOfMonth⟩
  if date.isValid && hour < 24 && minute < 60 && secs < 60 then
    some (ofClock date hour minute secs micros offset)
  else none

end Moment

/-! ## File times -/

/-- The time that a file system keeps for a file: seconds since the start of 1970, and nanoseconds.
-/
structure FileTime where
  seconds : Int
  nanos : Nat
  deriving DecidableEq, Repr

/-- Why a file time has no moment: its seconds do not fit into 64 bits, its year does not fit into
32 bits, or its year is none from 1 to 9999. -/
inductive FileTimeFault where
  | seconds
  | calendar
  | year (shown : Int)
  deriving DecidableEq, Repr

namespace FileTimeFault

/-- The kind of a failure. -/
def kindName : FileTimeFault → String
  | seconds => "OverflowError"
  | calendar => "OSError"
  | year _ => "ValueError"

/-- The text of a failure. -/
def message : FileTimeFault → String
  | seconds => "timestamp out of range for platform time_t"
  | calendar => "[Errno 75] Value too large for defined data type"
  | year shown => "year " ++ toString shown ++ " is out of range"

end FileTimeFault

namespace FileTime

/-- The microseconds between the start of year 1 and the start of 1970. -/
def epoch : Nat := (Date.mk 1970 1 1).toDays * Moment.day

/-- The microseconds since 1970 that are nearest to a file time, which is first rounded to a binary
number of seconds. There are none if that number is not finite. -/
def micros? (t : FileTime) : Option Int := do
  let fraction := (Binary64.ofDecimal false 1 (-9)).mul (Binary64.ofInt t.nanos)
  let (num, den) ← ((Binary64.ofInt t.seconds).add fraction).ratio?
  let whole := num.tdiv den
  let part := (Binary64.ofSigned (num - whole * den) den).mul (Binary64.ofInt Moment.second)
  let (a, b) ← part.ratio?
  let size : Int := roundHalfEven a.natAbs b
  return whole * Moment.second + (if a < 0 then -size else size)

/-- The moment of a file time, without an offset.  The year that a failure shows is a 32-bit number
and may have wrapped around. A time on the first day of year 1 has no moment either: the day before
it is looked at as well, to find out whether the clock was set back in between. -/
def moment (t : FileTime) : Except FileTimeFault Moment :=
  match t.micros? with
  | none => .error .seconds
  | some micros =>
    let wall : Int := epoch + micros
    let year := Date.yearOn (wall / Moment.day)
    let seconds := micros / Moment.second
    if seconds < -Int.pow 2 63 || Int.pow 2 63 ≤ seconds then .error .seconds
    else if year - 1900 < -Int.pow 2 31 || Int.pow 2 31 ≤ year - 1900 then .error .calendar
    else if year < 1 || 9999 < year then .error (.year (year.bmod (Nat.pow 2 32)))
    else if wall < Moment.day then .error (.year 0)
    else .ok ⟨wall.toNat, none⟩

end FileTime

end FileClerk
