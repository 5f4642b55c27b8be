import FileClerk.Number.Binary64
import FileClerk.Text.Case
import FileClerk.Text.Piece

/-!
# Size phrases

A command limits sizes by a phrase such as "larger than 2.5 mb": a comparing word, "than", a decimal
number and a unit, whatever their letter case. The phrase starts and ends at a word boundary. Units
are binary.

The number times its unit is rounded to 28 significant digits, a tie to the even digit, and its
whole part is the number of bytes. A size so large that it has no decimal form within range is one
of the two failures of a command (`CommandFault`); the other is a sort by date over moments that
cannot be compared.
-/

set_option autoImplicit false

namespace FileClerk

/-- Why a command has no answer. -/
inductive CommandFault where
  | sizeOutOfRange
  | incomparableMoments
  deriving DecidableEq, Repr

/-- The kind of a failure. -/
def CommandFault.kindName : CommandFault → String
  | .sizeOutOfRange => "Overflow"
  | .incomparableMoments => "TypeError"

/-- The text of a failure. -/
def CommandFault.message : CommandFault → String
  | .sizeOutOfRange => "[<class 'decimal.Overflow'>]"
  | .incomparableMoments => "can't compare offset-naive and offset-aware datetimes"

end FileClerk

namespace FileClerk.Command

open FileClerk.Text FileClerk.Number

/-- The direction of a threshold, `GREATER_THAN` or `LESS_THAN`. -/
inductive Comparator where
  | greater
  | less
  deriving DecidableEq, Repr

/-- A limit on sizes in bytes, `SizeThreshold`. -/
structure Threshold where
  comparator : Comparator
  bytes : Int
  deriving DecidableEq, Repr

/-- The function `matches`: `size` lies beyond the threshold; the threshold itself is not included.
-/
def Threshold.admits (t : Threshold) (size : Nat) : Bool :=
  match t.comparator with
  | .greater => t.bytes < size
  | .less => size < t.bytes

/-- The units of `UNIT_MULTIPLIERS`. -/
inductive SizeUnit where
  | gb
  | mb
  | kb
  | b
  deriving DecidableEq, Repr

namespace SizeUnit

/-- The units in the order in which `SIZE_PATTERN` tries them. -/
def all : List SizeUnit := [gb, mb, kb, b]

/-- The letters of a unit. -/
def letters : SizeUnit → List Char
  | gb => ['g', 'b']
  | mb => ['m', 'b']
  | kb => ['k', 'b']
  | b => ['b']

/-- The number of bytes in a unit, as in `UNIT_MULTIPLIERS`. -/
def bytes : SizeUnit → Nat
  | gb => 1024 * 1024 * 1024
  | mb => 1024 * 1024
  | kb => 1024
  | b => 1

end SizeUnit

/-- The words `GREATER_WORDS`, the comparing words that ask for more. -/
def greaterWords : List String := ["larger", "bigger", "greater", "more"]

/-- The words `LESS_WORDS`, the comparing words that ask for less. -/
def lessWords : List String := ["smaller", "less"]

/-- A match of `SIZE_PATTERN` as it is written: the comparing word, the digits before and after the
point, and the unit. -/
structure SizePhrase where
  word : List Char
  whole : List Char
  fraction : List Char
  unit : SizeUnit
  deriving DecidableEq, Repr

/-- The text behind at least one blank and all that follow it, `\s+`. -/
def afterBlanks? (s : List Char) : Option (List Char) :=
  if s.head?.any isBlank then some (s.dropWhile isBlank) else none

/-- The first of `words` that starts the text in any letter case, as it is written there, with the
rest. -/
def takeWord? (words : List String) (s : List Char) : Option (List Char × List Char) :=
  words.findSome? fun word =>
    (afterLetters word.toList s).map fun rest => (s.take word.length, rest)

/-- The digits behind a point, with the rest; without digits there is no fraction, `(?:\.\d+)?`. -/
def takeFraction (s : List Char) : List Char × List Char :=
  match s with
  | '.' :: rest =>
    if (rest.takeWhile isDigit).isEmpty then ([], s)
    else (rest.takeWhile isDigit, rest.dropWhile isDigit)
  | _ => ([], s)

/-- The unit at the start of a text, if the text does not go on with a word character. -/
def takeUnit? (s : List Char) : Option SizeUnit :=
  SizeUnit.all.find? fun unit =>
    match afterLetters unit.letters s with
    | some rest => !rest.head?.any isWordChar
    | none => false

/-- The pattern `SIZE_PATTERN` at a place: the size phrase that starts there. -/
def sizePhrase? (before : Option Char) (s : List Char) : Option SizePhrase := do
  if before.any isWordChar then none
  else
    let (word, s) ← takeWord? (greaterWords ++ lessWords) s
    let s ← afterBlanks? s
    let s ← afterLetters ['t', 'h', 'a', 'n'] s
    let s ← afterBlanks? s
    let whole := s.takeWhile isDigit
    if whole.isEmpty then none
    else
      let (fraction, s) := takeFraction (s.dropWhile isDigit)
      let unit ← takeUnit? (s.dropWhile isBlank)
      some ⟨word, whole, fraction, unit⟩

namespace SizePhrase

/-- The number of significant digits that decimal products are rounded to. -/
def precision : Nat := 28

/-- The largest exponent of the leading digit of a size. -/
def maxExponent : Nat := 999999

/-- The comparator `Comparator.greater` if the comparing word is one of `greaterWords` in plain
lower case. -/
def comparator (p : SizePhrase) : Comparator :=
  if greaterWords.any fun w => w.toList == lower p.word then .greater else .less

/-- The digits of `p` before and behind the point, as one natural number. -/
def digits (p : SizePhrase) : Nat := ofDigits 10 ((p.whole ++ p.fraction).filterMap digitValue?)

/-- The number `p.digits` times the bytes of the unit, rounded to `precision` digits. The last
digits of the result stand behind the point, one for each digit of the fraction. -/
def scaled (p : SizePhrase) : Nat := roundToDigits precision (p.digits * p.unit.bytes)

/-- The leading digit of `p.scaled` has an exponent of at most `maxExponent`. -/
def inRange (p : SizePhrase) : Bool := digitCount p.scaled ≤ maxExponent + 1 + p.fraction.length

/-- The size in whole bytes: `p.scaled` without the digits behind its point. -/
def bytes (p : SizePhrase) : Nat := p.scaled / Nat.pow 10 p.fraction.length

/-- The threshold that `p` sets, or `CommandFault.sizeOutOfRange`. -/
def threshold (p : SizePhrase) : Except CommandFault Threshold :=
  if p.inRange then .ok ⟨p.comparator, p.bytes⟩ else .error .sizeOutOfRange

end SizePhrase

/-- The function `extract_size_threshold`: the threshold of the first size phrase of `text`, if
there is one. -/
def sizeThreshold (text : List Char) : Except CommandFault (Option Threshold) :=
  match firstReading? sizePhrase? none text with
  | none => .ok none
  | some phrase => phrase.threshold.map some

end FileClerk.Command
