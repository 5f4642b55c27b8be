import FileClerk.Text.Table.Class

/-!
# Texts as lists of characters

Commands are read as lists of characters, so that positions and lengths count code points. The
classes that they are read with are blanks, word characters, decimal digits, printable characters,
and the two classes behind the lower-case form of a capital sigma. Each class covers all of Unicode;
below code point 128 it is given by a formula, above it by a table.

The rest is what every reader uses: trimming, occurrence, alignment, cutting at a character and the
neighbours of a position.
-/

set_option autoImplicit false

namespace FileClerk.Text

/-! ## Character classes -/

/-- Blanks are the white space of Unicode together with the four information separators; the class
`\s`. -/
def isBlank (c : Char) : Bool :=
  let n := c.toNat
  (9 ≤ n && n ≤ 13) || (28 ≤ n && n ≤ 32) || n == 0x85 || n == 0xa0 || n == 0x1680
    || (0x2000 ≤ n && n ≤ 0x200a) || n == 0x2028 || n == 0x2029 || n == 0x202f || n == 0x205f
    || n == 0x3000

/-- Word characters are letters, numerals and the underscore, the class `\w`; combining marks are
none. -/
def isWordChar (c : Char) : Bool :=
  if c.toNat < 128 then c.isAlphanum || c == '_' else inRuns wordRuns c.toNat

/-- The value of a decimal digit of any script. -/
def digitValue? (c : Char) : Option Nat :=
  if c.toNat < 128 then
    if c.isDigit then some (c.toNat - 48) else none
  else
    digitZeros.findSome? fun start =>
      if start ≤ c.toNat && c.toNat ≤ start + 9 then some (c.toNat - start) else none

/-- The character is a decimal digit of some script, the class `\d`. -/
def isDigit (c : Char) : Bool := (digitValue? c).isSome

/-- The character has a printed form; among blanks only the plain space has one. -/
def isPrintable (c : Char) : Bool :=
  if c.toNat < 128 then 32 ≤ c.toNat && c.toNat < 127 else !inRuns unprintableRuns c.toNat

/-- The character has letter case and is not skipped by `isCaseIgnorable`. -/
def isCased (c : Char) : Bool := inRuns casedRuns c.toNat

/-- The character is skipped when the neighbours of a capital sigma are looked at. -/
def isCaseIgnorable (c : Char) : Bool := inRuns caseIgnorableRuns c.toNat

/-! ## Texts -/

/-- The text `s` without blanks at its ends. -/
def trim (s : List Char) : List Char :=
  ((s.dropWhile isBlank).reverse.dropWhile isBlank).reverse

/-- The text `needle` occurs somewhere in the text. -/
def occursIn (needle : List Char) : List Char → Bool
  | [] => needle.isEmpty
  | c :: rest => needle.isPrefixOf (c :: rest) || occursIn needle rest

/-- Exactly one of two neighbours is a word character, as `\b` asks; a missing neighbour is none. -/
def isBoundary (left right : Option Char) : Bool := left.any isWordChar != right.any isWordChar

/-- The text `s`, filled with spaces on the right up to `width`. -/
def padRight (width : Nat) (s : String) : String :=
  s ++ String.ofList (List.replicate (width - s.length) ' ')

/-- The text `s`, filled with spaces on the left up to `width`. -/
def padLeft (width : Nat) (s : String) : String :=
  String.ofList (List.replicate (width - s.length) ' ') ++ s

/-- The rest of a text behind `c`, if it starts with it. -/
def afterChar? (c : Char) : List Char → Option (List Char)
  | [] => none
  | d :: rest => if c == d then some rest else none

/-- The stretches of a text between the occurrences of `mark`. -/
def splitAtChar (mark : Char) : List Char → List (List Char)
  | [] => [[]]
  | c :: rest =>
    if c == mark then [] :: splitAtChar mark rest
    else
      match splitAtChar mark rest with
      | [] => [[c]]
      | stretch :: more => (c :: stretch) :: more

/-- The stretches of `s` between line feeds. -/
def lines (s : String) : List String := (splitAtChar '\n' s.toList).map String.ofList

/-- The number `n` in base sixteen, filled with zeros up to `width`. -/
def hex (width n : Nat) : List Char :=
  let digits := Nat.toDigits 16 n
  List.replicate (width - digits.length) '0' ++ digits

end FileClerk.Text
