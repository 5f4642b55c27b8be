import FileClerk.Number.Binary64
import FileClerk.Text.Base64
import FileClerk.Text.Case
import FileClerk.Yaml.Fault
import FileClerk.Yaml.Kind

/-!
# Values of scalars

The value that a text has as a scalar of a kind. A tag can give any text to any kind, so that a
kind reads more texts than those that have its form.
-/

set_option autoImplicit false

namespace FileClerk.Yaml

open FileClerk.Number FileClerk.Text

/-! ## Truth values -/

/-- The truth value that a text stands for, in any letter case. -/
def truthOf (s : List Char) : Except Fault Bool :=
  let text := String.ofList (lower s)
  match boolTexts.lookup text with
  | some b => .ok b
  | none => .error (.notATruthValue text)

/-! ## Numbers -/

/-- The text without underscores. -/
def withoutUnderscores (s : List Char) : List Char := s.filter (· != '_')

/-- The integer that a literal in a base stands for. -/
def literalOf (base : Nat) (s : List Char) : Except Fault Int :=
  (integerIn base s).mapError (.notAnInteger (String.ofList s))

/-- The value of digits in base sixty, the leading one first. -/
def sexagesimal (digits : List Int) : Int := digits.foldl (fun n d => 60 * n + d) 0

/-- The integer that a text without underscores and its first sign stands for. A zero in front
stands for base 8. -/
def integerSize (s : List Char) : Except Fault Int :=
  match s with
  | [] => .error .emptyNumber
  | ['0'] => .ok 0
  | '0' :: 'b' :: rest => literalOf 2 rest
  | '0' :: 'x' :: rest => literalOf 16 rest
  | '0' :: _ => literalOf 8 s
  | _ =>
    if s.contains ':' then ((splitAtChar ':' s).mapM (literalOf 10)).map sexagesimal
    else literalOf 10 s

/-- The integer that a text stands for. -/
def integerOf (s : List Char) : Except Fault Int := do
  let (negative, size) := takeSign (withoutUnderscores s)
  let n ← integerSize size
  return if negative then -n else n

/-- The number that a numeral stands for. -/
def numeralOf (s : List Char) : Except Fault Binary64 :=
  match numeral? s with
  | some x => .ok x
  | none => .error (.notANumber (String.ofList s))

/-- The sum of parts in base sixty, the last one first. The factors of the parts grow without a
bound, while a binary number has one. -/
def sexagesimalSum (sum : Binary64) (factor : Nat) : List Binary64 → Except Fault Binary64
  | [] => .ok sum
  | part :: rest =>
    match Binary64.ofInt factor with
    | .infinite _ => .error .hugeFactor
    | x => sexagesimalSum (sum.add (part.mul x)) (factor * 60) rest

/-- The binary number that a text in lower case without its first sign stands for. -/
def floatSize (s : List Char) : Except Fault Binary64 :=
  if s == ".inf".toList then .ok (.infinite false)
  else if s == ".nan".toList then .ok .nan
  else if s.contains ':' then do
    let parts ← (splitAtChar ':' s).mapM numeralOf
    sexagesimalSum (.zero false) 1 parts.reverse
  else numeralOf s

/-- The binary number that a text stands for. -/
def floatOf (s : List Char) : Except Fault Binary64 :=
  match lower (withoutUnderscores s) with
  | [] => .error .emptyNumber
  | text => do
    let (negative, size) := takeSign text
    let x ← floatSize size
    return if negative then x.neg else x

/-! ## Points in time -/

/-- What is out of range in a date, if anything is. -/
def dateFault? (date : Date) : Option String :=
  if date.year == 0 then some "year 0 is out of range"
  else if date.month == 0 || 12 < date.month then some "month must be in 1..12"
  else if !date.isValid then some "day is out of range for month"
  else none

/-- What is out of range in a time of day, if anything is. -/
def clockFault? (hour minute second : Nat) : Option String :=
  if 23 < hour then some "hour must be in 0..23"
  else if 59 < minute then some "minute must be in 0..59"
  else if 59 < second then some "second must be in 0..59"
  else none

/-- Seconds in a day. -/
def secondsPerDay : Nat := 86400

/-- What is wrong with a point in time, if anything is. The offset is looked at first; it is less
than a day in either direction. -/
def TimeFields.fault? (t : TimeFields) : Option Fault :=
  match t.offset.filter fun offset => secondsPerDay ≤ offset.natAbs with
  | some offset => some (.offsetOutOfRange offset)
  | none =>
    let clock := t.clock.bind fun (hour, minute, second) => clockFault? hour minute second
    ((dateFault? t.date).or clock).map .outOfRange

/-- The value of a point in time. -/
def TimeFields.value (t : TimeFields) : Except Fault Value :=
  match t.fault?, t.clock with
  | some fault, _ => .error fault
  | none, none => .ok (.date t.date)
  | none, some (hour, minute, second) =>
    .ok (.moment (Moment.ofClock t.date hour minute second t.micros t.offset))

/-- The value of a text as a point in time. -/
def timeOf (s : List Char) : Except Fault Value :=
  match time? (withoutLineFeed s) with
  | some t => t.value
  | none => .error .notATime

/-! ## Scalars -/

/-- The bytes of a text in base 64, which is in ASCII. -/
def bytesOf (s : List Char) : Except Fault (List UInt8) :=
  if s.all fun c => c.toNat < 128 then orMalformed (base64? s) else .error .malformed

/-- The value of a text as a scalar of a kind. Marks and collections are no kinds of scalars. -/
def scalarValue (kind : Kind) (text : String) : Except Fault Value :=
  let s := text.toList
  match kind with
  | .null => .ok .null
  | .bool => (truthOf s).map .bool
  | .int => (integerOf s).map .int
  | .float => (floatOf s).map .float
  | .time => timeOf s
  | .text => .ok (.text text)
  | .binary => (bytesOf s).map .bytes
  | _ => .error .malformed

end FileClerk.Yaml
