import FileClerk.Value.Basic

/-!
# Reading JSON

The value of a JSON text. Integers are read exactly, whatever their length; a number with a
fraction or an exponent is a binary number. Entries keep their order, and the last value wins for a
repeated key. Strings name characters beyond the basic plane by pairs of UTF-16 units.

A reader takes a text and gives a value with the rest of the text. Nesting is bounded by the length
of the text, which is the fuel of the readers of values.
-/

set_option autoImplicit false

namespace FileClerk.Json

open FileClerk.Number

/-- White space between tokens. -/
def isSpace (c : Char) : Bool := c == ' ' || c == '\n' || c == '\r' || c == '\t'

/-- The text `s` without leading white space. -/
def skipSpace (s : List Char) : List Char := s.dropWhile isSpace

/-- The rest of a text behind a fixed beginning. -/
def after? : List Char → List Char → Option (List Char)
  | [], s => some s
  | c :: word, d :: s => if c == d then after? word s else none
  | _ :: _, [] => none

/-- The UTF-16 unit of the hexadecimal digits `a b c d`. -/
def unit? (a b c d : Char) : Option Nat := natural? 16 [a, b, c, d]

/-- The character that `\c` stands for. -/
def escaped? (c : Char) : Option Char :=
  if c == '\x22' || c == '\\' || c == '/' then some c
  else if c == 'b' then some '\x08'
  else if c == 'f' then some '\x0c'
  else if c == 'n' then some '\n'
  else if c == 'r' then some '\r'
  else if c == 't' then some '\t'
  else none

/-- The character of the UTF-16 pair `high low`. -/
def ofPair (high low : Nat) : Char :=
  Char.ofNat (0x10000 + (high - 0xd800) * 0x400 + (low - 0xdc00))

/-- The unit `unit` is the first of a pair. -/
def isHigh (unit : Nat) : Bool := 0xd800 ≤ unit && unit < 0xdc00

/-- The unit `unit` is the second of a pair. -/
def isLow (unit : Nat) : Bool := 0xdc00 ≤ unit && unit < 0xe000

/-- The rest of a string after its opening quote, with the text behind its closing quote. The
argument `acc` holds the characters already read, in reverse. A unit outside a pair becomes the
replacement character. -/
def stringTail (acc : List Char) : List Char → Option (String × List Char)
  | [] => none
  | '\\' :: 'u' :: a :: b :: c :: d :: '\\' :: 'u' :: e :: f :: g :: h :: rest =>
    match unit? a b c d, unit? e f g h with
    | some high, some low =>
      if isHigh high && isLow low then stringTail (ofPair high low :: acc) rest
      else
        let first := if isHigh high || isLow high then '\ufffd' else Char.ofNat high
        stringTail (first :: acc) ('\\' :: 'u' :: e :: f :: g :: h :: rest)
    | some high, none =>
      stringTail (Char.ofNat high :: acc) ('\\' :: 'u' :: e :: f :: g :: h :: rest)
    | none, _ => none
  | '\\' :: 'u' :: a :: b :: c :: d :: rest =>
    match unit? a b c d with
    | some n => stringTail ((if isHigh n || isLow n then '\ufffd' else Char.ofNat n) :: acc) rest
    | none => none
  | '\\' :: c :: rest =>
    match escaped? c with
    | some x => stringTail (x :: acc) rest
    | none => none
  | c :: rest =>
    if c == '\x22' then some (String.ofList acc.reverse, rest)
    else if c.toNat < 32 || c == '\\' then none
    else stringTail (c :: acc) rest
termination_by s => s.length

/-- The exponent at the start of `s`, or none if `s` does not start with `e` or `E`. -/
def exponentPart? (s : List Char) : Option (Option Int × List Char) :=
  match s with
  | c :: rest =>
    if c == 'e' || c == 'E' then
      let (negative, rest) := match rest with
        | '-' :: more => (true, more)
        | '+' :: more => (false, more)
        | _ => (false, rest)
      let digits := rest.takeWhile Char.isDigit
      if digits.isEmpty then none
      else
        let n : Int := decimalValue digits
        some (some (if negative then -n else n), rest.dropWhile Char.isDigit)
    else some (none, s)
  | [] => some (none, s)

/-- The number at the start of `s` behind its sign. -/
def magnitude? (negative : Bool) (s : List Char) : Option (Value × List Char) := do
  let whole := s.takeWhile Char.isDigit
  let s := s.dropWhile Char.isDigit
  if whole.isEmpty || (whole.length > 1 && whole.head? == some '0') then none
  else
    let (fraction, s) := match s with
      | '.' :: rest => (some (rest.takeWhile Char.isDigit), rest.dropWhile Char.isDigit)
      | _ => (none, s)
    if fraction == some [] then none
    else
      let (exponent, s) ← exponentPart? s
      if fraction.isNone && exponent.isNone then
        let n : Int := decimalValue whole
        some (.int (if negative then -n else n), s)
      else
        let places := fraction.getD []
        let n := decimalValue (whole ++ places)
        some (.float (.ofDecimal negative n (exponent.getD 0 - places.length)), s)

/-- A number. -/
def number? (s : List Char) : Option (Value × List Char) :=
  match s with
  | '-' :: rest => match after? "Infinity".toList rest with
    | some more => some (.float (.infinite true), more)
    | none => magnitude? true rest
  | _ => magnitude? false s

/-- The named constant at the start of `s`. -/
def constant? (s : List Char) : Option (Value × List Char) :=
  [("null", Value.null), ("true", .bool true), ("false", .bool false), ("NaN", .float .nan),
    ("Infinity", .float (.infinite false))].findSome? fun (word, value) =>
      (after? word.toList s).map fun rest => (value, rest)

mutual

/-- The value at the start of a text without leading white space, with the rest of the text. -/
def value? : Nat → List Char → Option (Value × List Char)
  | 0, _ => none
  | fuel + 1, s =>
    match s with
    | '[' :: rest =>
      match skipSpace rest with
      | ']' :: more => some (.list [], more)
      | inner => do
        let (items, more) ← items? fuel inner
        some (.list items, more)
    | c :: rest =>
      if c == '\x7b' then
        match skipSpace rest with
        | '\x7d' :: more => some (.map [], more)
        | inner => do
          let (pairs, more) ← pairs? fuel inner
          some (.map (Value.ofPairs pairs), more)
      else if c == '\x22' then (stringTail [] rest).map fun (text, more) => (.text text, more)
      else (constant? s).or (number? s)
    | [] => none

/-- The items of a list up to its closing bracket, with the rest of the text. -/
def items? : Nat → List Char → Option (List Value × List Char)
  | 0, _ => none
  | fuel + 1, s => do
    let (item, rest) ← value? fuel s
    match skipSpace rest with
    | ',' :: more => do
      let (items, rest) ← items? fuel (skipSpace more)
      some (item :: items, rest)
    | ']' :: more => some ([item], more)
    | _ => none

/-- The entries of a mapping up to its closing brace, with the rest of the text. -/
def pairs? : Nat → List Char → Option (List (Value × Value) × List Char)
  | 0, _ => none
  | fuel + 1, s =>
    match s with
    | '\x22' :: rest => do
      let (name, rest) ← stringTail [] rest
      let rest ← after? [':'] (skipSpace rest)
      let (value, rest) ← value? fuel (skipSpace rest)
      match skipSpace rest with
      | ',' :: more => do
        let (pairs, rest) ← pairs? fuel (skipSpace more)
        some ((.text name, value) :: pairs, rest)
      | '\x7d' :: more => some ([(.text name, value)], more)
      | _ => none
    | _ => none

end

/-- The value of `text`, with white space around it. -/
def parse? (text : String) : Option Value :=
  let s := skipSpace text.toList
  match value? (2 * s.length + 2) s with
  | some (value, rest) => if (skipSpace rest).isEmpty then some value else none
  | none => none

end FileClerk.Json
