import FileClerk.Text.Basic

/-!
# Digits and integer literals

The values of digits and of runs of digits in a base. Digits are ASCII characters here; the decimal
digits of all scripts are a class of characters of their own.

An integer literal, which `integerIn` reads, is a run of digits of any script in a base, with an
optional sign in front, single underscores between digits, and white space around it. In the bases
2, 8 and 16 a zero with a letter may stand in front of the digits. A decimal literal of more than
4300 digits is refused for its length, even if it is no literal for what follows its digits.
-/

set_option autoImplicit false

namespace FileClerk.Number

open FileClerk.Text

/-! ## Digits -/

/-- The value of `c` in a base of at most sixteen, with letters of either case. -/
def digitOf? (base : Nat) (c : Char) : Option Nat :=
  let value? :=
    if c.isDigit then some (c.toNat - 48)
    else if 'a' ≤ c && c ≤ 'f' then some (c.toNat - 87)
    else if 'A' ≤ c && c ≤ 'F' then some (c.toNat - 55)
    else none
  value?.filter (· < base)

/-- The value of `digits` in a base, the leading digit first. -/
def ofDigits (base : Nat) (digits : List Nat) : Nat := digits.foldl (fun n d => base * n + d) 0

/-- The natural number that `s` stands for in a base, if it consists of digits. -/
def natural? (base : Nat) (s : List Char) : Option Nat :=
  (s.mapM (digitOf? base)).map (ofDigits base)

/-- The natural number that the decimal digits in `s` stand for. -/
def decimalValue (s : List Char) : Nat := ofDigits 10 (s.filterMap (digitOf? 10))

/-- The number at the start of a text, of at least `least` and at most `most` decimal digits, with
the rest of the text. -/
def takeNumber? (least most : Nat) (s : List Char) : Option (Nat × List Char) :=
  let digits := (s.take most).takeWhile Char.isDigit
  if digits.length < least then none else some (decimalValue digits, s.drop digits.length)

/-! ## Failures -/

/-- The most digits of an integer in a decimal text. -/
def maxDecimalDigits : Nat := 4300

/-- The integer has too many digits for a decimal text. -/
def isTooLong (n : Int) : Bool := Nat.pow 10 maxDecimalDigits ≤ n.natAbs

/-- The start of the messages about integers of too many digits. -/
def limitMessage : String :=
  s!"Exceeds the limit ({maxDecimalDigits} digits) for integer string conversion"

/-- What the messages about integers of too many digits advise. -/
def limitAdvice : String := "; use sys.set_int_max_str_digits() to increase the limit"

/-- The message about an integer with too many digits for a text. -/
def tooLongMessage : String := limitMessage ++ limitAdvice

/-- Why a text is not read as an integer. -/
inductive LiteralFault where
  | malformed (base : Nat)
  | tooLong (digits : Nat)
  deriving DecidableEq, Repr

/-- The text of a failure about a literal, which is shown by its first 200 characters. -/
def LiteralFault.message (shown : String) : LiteralFault → String
  | malformed base =>
    "invalid literal for int() with base " ++ toString base ++ ": "
      ++ String.ofList (shown.toList.take 200)
  | tooLong digits => limitMessage ++ s!": value has {digits} digits" ++ limitAdvice

/-! ## Characters -/

/-- White space of ASCII that may stand around a literal. -/
def isPadding (c : Char) : Bool := c == ' ' || (9 ≤ c.toNat && c.toNat ≤ 13)

/-- The character `c` as a literal takes it: white space as a space, a digit as the ASCII digit, and
any other character outside of ASCII as a question mark. -/
def literalChar (c : Char) : Char :=
  if c.toNat < 127 then c
  else if isBlank c then ' '
  else
    match digitValue? c with
    | some d => Char.ofNat (48 + d)
    | none => '?'

/-! ## Literals -/

/-- The sign at the start of a text, and the rest of the text. -/
def takeSign : List Char → Bool × List Char
  | '-' :: rest => (true, rest)
  | '+' :: rest => (false, rest)
  | s => (false, s)

/-- The letters that mark a base behind a zero. -/
def baseLetters : List (Nat × List Char) := [(2, ['b', 'B']), (8, ['o', 'O']), (16, ['x', 'X'])]

/-- The text `s` without a mark of the base in front, behind which one underscore may stand. -/
def withoutBaseMark (base : Nat) (s : List Char) : List Char :=
  match s with
  | '0' :: letter :: rest =>
    if ((baseLetters.lookup base).getD []).contains letter then (afterChar? '_' rest).getD rest
    else s
  | _ => s

/-- The digits and underscores at the start of a text. -/
def digitRun (base : Nat) (s : List Char) : List Char :=
  s.takeWhile fun c => (digitOf? base c).isSome || c == '_'

/-- Underscores stand between digits of `run` only. -/
def separatesDigits (run : List Char) : Bool :=
  run.head? != some '_' && run.getLast? != some '_' && !(run.zip (run.drop 1)).contains ('_', '_')

/-- The number of `digits` is refused; only decimal literals have a limit. -/
def exceedsLimit (base : Nat) (digits : List Nat) : Bool :=
  base == 10 && maxDecimalDigits < digits.length

/-- The integer that `s` stands for in a base. -/
def integerIn (base : Nat) (s : List Char) : Except LiteralFault Int :=
  let (negative, body) := takeSign ((s.map literalChar).dropWhile isPadding)
  let body := withoutBaseMark base body
  let run := digitRun base body
  let digits := run.filterMap (digitOf? base)
  if !separatesDigits run then .error (.malformed base)
  else if exceedsLimit base digits then .error (.tooLong digits.length)
  else if digits.isEmpty || !(body.drop run.length).all isPadding then .error (.malformed base)
  else .ok (if negative then -(ofDigits base digits : Int) else ofDigits base digits)

end FileClerk.Number
