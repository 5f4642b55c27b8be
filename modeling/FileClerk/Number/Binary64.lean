import FileClerk.Number.Literal

/-!
# Rounding and binary floating point

`roundHalfEven` takes a quotient to the nearest whole number and a tie to the even one, and
`roundToDigits` rounds a natural number to its leading decimal digits.

`Binary64` has the numbers of the 64-bit binary format, held exactly: a finite number is a mantissa
below `2 ^ 53` times a power of two. A quotient of natural numbers is rounded to the nearest such
number, a tie to the even mantissa, and sums and products are rounded from their exact values. A
number is shown with the fewest digits that read back as the same number, and among those with the
nearest ones.

A numeral stands for the nearest binary number (`numeral?`). It has digits of any script with at
most one point among them, perhaps an exponent, a sign in front and white space around it. The names
of infinity and of no number are numerals too, in any letter case.
-/

set_option autoImplicit false

namespace FileClerk.Number

open FileClerk.Text

/-! ## Rounding -/

/-- The number of decimal digits of `n`; zero has one. -/
def digitCount (n : Nat) : Nat :=
  if n < 10 then 1 else digitCount (n / 10) + 1
termination_by n

/-- The whole number nearest to `num / den`, the even one at a tie. -/
def roundHalfEven (num den : Nat) : Nat :=
  let q := num / den
  let r := num % den
  if 2 * r < den then q else if den < 2 * r then q + 1 else q + q % 2

/-- The number `n` rounded to its `digits` leading decimal digits; a shorter number stays as it is.
-/
def roundToDigits (digits n : Nat) : Nat :=
  let unit := Nat.pow 10 (digitCount n - digits)
  roundHalfEven n unit * unit

/-- The quotient `num / den` with one decimal place. -/
def oneDecimal (num den : Nat) : String :=
  let tenths := roundHalfEven (num * 10) den
  toString (tenths / 10) ++ "." ++ toString (tenths % 10)

/-! ## Binary numbers -/

/-- A number of the 64-bit binary format. A finite number is `mantissa * 2 ^ exponent`, with the
mantissa of at most 53 binary digits and the exponent at least -1074. -/
inductive Binary64 where
  | finite (negative : Bool) (mantissa : Nat) (exponent : Int)
  | infinite (negative : Bool)
  | nan
  deriving DecidableEq, Repr

namespace Binary64

/-- The least exponent, that of the subnormal numbers. -/
def minExponent : Int := -1074

/-- The exponent from which a 53-digit mantissa is out of range. -/
def overflowExponent : Int := 972

/-- The zero with a sign. -/
def zero (negative : Bool) : Binary64 := finite negative 0 minExponent

/-- The number `mantissa * 2 ^ exponent` of a rounded mantissa, which may have grown to `2 ^ 53`. -/
def pack (negative : Bool) (mantissa : Nat) (exponent : Int) : Binary64 :=
  if mantissa == 0 then zero negative
  else
    let (m, e) :=
      if mantissa == Nat.pow 2 53 then (Nat.pow 2 52, exponent + 1) else (mantissa, exponent)
    if overflowExponent ≤ e then infinite negative else finite negative m e

/-- The binary exponent at which `num / den` has a mantissa of 53 digits, or `minExponent` for a
smaller quotient. -/
def exponentFor (num den : Nat) : Int :=
  let guess : Int := (num.log2 : Int) - den.log2 - 52
  -- The quotient lies in `[2 ^ (guess + 51), 2 ^ (guess + 53))`.
  let short := if guess < 0 then num * Nat.pow 2 (-guess).toNat < Nat.pow 2 52 * den
    else num < Nat.pow 2 52 * den * Nat.pow 2 guess.toNat
  max minExponent (if short then guess - 1 else guess)

/-- The number nearest to `num / den`. -/
def ofRatio (negative : Bool) (num den : Nat) : Binary64 :=
  if num == 0 || den == 0 then zero negative
  else
    let e := exponentFor num den
    let m := if e < 0 then roundHalfEven (num * Nat.pow 2 (-e).toNat) den
      else roundHalfEven num (den * Nat.pow 2 e.toNat)
    pack negative m e

/-- The number nearest to `digits * 10 ^ exponent`. Numerals far outside the range are settled by
their length. -/
def ofDecimal (negative : Bool) (digits : Nat) (exponent : Int) : Binary64 :=
  if digits == 0 then zero negative
  else
    let size := exponent + digitCount digits
    if 400 < size then infinite negative
    else if size < -400 then zero negative
    else if exponent < 0 then ofRatio negative digits (Nat.pow 10 (-exponent).toNat)
    else ofRatio negative (digits * Nat.pow 10 exponent.toNat) 1

/-- The number nearest to `n`. -/
def ofInt (n : Int) : Binary64 := ofRatio (n < 0) n.natAbs 1

/-- The exact value of a finite number as a signed numerator over a positive denominator. -/
def ratio? : Binary64 → Option (Int × Nat)
  | finite negative m e =>
    let magnitude : Int := if e < 0 then m else m * Nat.pow 2 e.toNat
    some (if negative then -magnitude else magnitude, if e < 0 then Nat.pow 2 (-e).toNat else 1)
  | _ => none

/-- The number nearest to `num / den`. -/
def ofSigned (num : Int) (den : Nat) : Binary64 := ofRatio (num < 0) num.natAbs den

/-- The number has a minus sign. -/
def isNegative : Binary64 → Bool
  | finite negative _ _ => negative
  | infinite negative => negative
  | nan => false

/-- The number is a zero of either sign. -/
def isZero : Binary64 → Bool
  | finite _ m _ => m == 0
  | _ => false

/-- The number nearest to the sum of `x` and `y`. Infinite numbers of different signs have none. -/
def add (x y : Binary64) : Binary64 :=
  match x, y with
  | nan, _ => nan
  | _, nan => nan
  | infinite p, infinite q => if p == q then infinite p else nan
  | infinite p, _ => infinite p
  | _, infinite q => infinite q
  | _, _ =>
    match x.ratio?, y.ratio? with
    | some (a, b), some (c, d) => ofSigned (a * d + c * b) (b * d)
    | _, _ => nan

/-- The number nearest to the product of `x` and `y`. An infinite number and zero have none. -/
def mul (x y : Binary64) : Binary64 :=
  match x.ratio?, y.ratio? with
  | some (a, b), some (c, d) => ofSigned (a * c) (b * d)
  | _, _ =>
    if x == nan || y == nan || x.isZero || y.isZero then nan
    else infinite (x.isNegative != y.isNegative)

/-- The same number with the other sign. -/
def neg : Binary64 → Binary64
  | finite negative m e => finite (!negative) m e
  | infinite negative => infinite (!negative)
  | nan => nan

/-- The whole part of `x`, toward zero; there is none if `x` is not finite. -/
def truncate? (x : Binary64) : Option Int :=
  x.ratio?.map fun (a, b) => a.tdiv b

/-! ## Shortest decimal form -/

/-- The decimal exponent `k` with `10 ^ (k - 1) ≤ num / den < 10 ^ k`, for a positive quotient. -/
def decimalSize (num den : Nat) : Int :=
  if den ≤ num then digitCount (num / den)
  else
    let k : Int := (digitCount num : Int) - digitCount den
    -- The quotient lies in `[10 ^ (k - 1), 10 ^ (k + 1))`.
    if num * Nat.pow 10 (-k).toNat < den then k else k + 1

/-- The decimal numeral with `count` digits below or above a positive quotient that reads back as
`x`; of two the nearer, and at a tie the even one. The result is the digits with their exponent. -/
def neighbour? (x : Binary64) (num den : Nat) (count : Nat) : Option (Nat × Int) :=
  let k := decimalSize num den - count
  let (a, b) :=
    if k < 0 then (num * Nat.pow 10 (-k).toNat, den) else (num, den * Nat.pow 10 k.toNat)
  let hit (d : Nat) : Bool := ofDecimal false d k == x
  let nearer := roundHalfEven a b
  let other := if nearer == a / b then nearer + 1 else a / b
  if hit nearer then some (nearer, k) else if hit other then some (other, k) else none

/-- The numeral of `neighbour?` with the fewest digits, at least `count` of them, out of `fuel`
lengths. -/
def shortestFrom (x : Binary64) (num den : Nat) : Nat → Nat → Nat × Int
  | 0, _ => (0, 0)
  | fuel + 1, count =>
    match neighbour? x num den count with
    | some found => found
    | none => shortestFrom x num den fuel (count + 1)

/-- The digits and the exponent of the shortest decimal form of `mantissa * 2 ^ exponent`; seventeen
digits always suffice. -/
def shortest (mantissa : Nat) (exponent : Int) : Nat × Int :=
  let num := if exponent < 0 then mantissa else mantissa * Nat.pow 2 exponent.toNat
  let den := if exponent < 0 then Nat.pow 2 (-exponent).toNat else 1
  shortestFrom (finite false mantissa exponent) num den 17 1

/-- Digits with the point after the first `point` of them; zeros fill the gaps. -/
def positional (digits : List Char) (point : Int) : List Char :=
  if point ≤ 0 then '0' :: '.' :: List.replicate (-point).toNat '0' ++ digits
  else
    let whole := point.toNat
    let fraction := digits.drop whole
    digits.take whole ++ List.replicate (whole - digits.length) '0'
      ++ '.' :: (if fraction.isEmpty then ['0'] else fraction)

/-- Digits in scientific form with an exponent of at least two digits. -/
def scientific (digits : List Char) (exponent : Int) : List Char :=
  let size := (toString exponent.natAbs).toList
  let fraction := digits.drop 1
  digits.take 1 ++ (if fraction.isEmpty then [] else '.' :: fraction) ++ ['e']
    ++ [if exponent < 0 then '-' else '+'] ++ List.replicate (2 - size.length) '0' ++ size

/-- A number as text: positional from `1e-4` up to below `1e16`, scientific outside. -/
def text : Binary64 → String
  | finite negative 0 _ => if negative then "-0.0" else "0.0"
  | finite negative m e =>
    let (n, k) := shortest m e
    let digits := (toString n).toList.reverse.dropWhile (· == '0') |>.reverse
    let point := k + digitCount n
    let body := if -4 < point && point ≤ 16 then positional digits point
      else scientific digits (point - 1)
    String.ofList (if negative then '-' :: body else body)
  | infinite negative => if negative then "-inf" else "inf"
  | nan => "nan"

end Binary64

/-! ## Numerals -/

/-- The exponent that the end `s` of a numeral gives; an empty end gives none. -/
def exponent? (s : List Char) : Option Int :=
  match s with
  | [] => some 0
  | e :: rest =>
    let (negative, digits) := takeSign rest
    if (e == 'e' || e == 'E') && !digits.isEmpty && digits.all Char.isDigit then
      let n : Int := decimalValue digits
      some (if negative then -n else n)
    else none

/-- The number that digits with a point and an exponent stand for. -/
def decimal? (s : List Char) : Option Binary64 := do
  let whole := s.takeWhile Char.isDigit
  let behind := s.drop whole.length
  let fraction := ((afterChar? '.' behind).map (·.takeWhile Char.isDigit)).getD []
  let rest := ((afterChar? '.' behind).map (·.dropWhile Char.isDigit)).getD behind
  if whole.isEmpty && fraction.isEmpty then none
  else
    let exponent ← exponent? rest
    some (.ofDecimal false (decimalValue (whole ++ fraction)) (exponent - fraction.length))

/-- The numbers that have names. -/
def namedNumbers : List (String × Binary64) :=
  [("inf", .infinite false), ("infinity", .infinite false), ("nan", .nan)]

/-- The number that `s` stands for. -/
def numeral? (s : List Char) : Option Binary64 :=
  let padded := (s.map literalChar).dropWhile isPadding
  let (negative, size) := takeSign ((padded.reverse.dropWhile isPadding).reverse)
  let found := (namedNumbers.lookup (String.ofList (size.map Char.toLower))).or (decimal? size)
  found.map fun x => if negative then x.neg else x

end FileClerk.Number
