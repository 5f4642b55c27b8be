/-!
# Bytes as text in base 64

Four characters of an alphabet of sixty-four stand for three bytes. A last group of two or three
characters is filled up with equals signs, which end the text. Characters outside of the alphabet
are passed over.
-/

set_option autoImplicit false

namespace FileClerk.Text

/-- The value of a character of the alphabet. -/
def sextetOf? (c : Char) : Option Nat :=
  if 'A' ≤ c && c ≤ 'Z' then some (c.toNat - 65)
  else if 'a' ≤ c && c ≤ 'z' then some (c.toNat - 71)
  else if c.isDigit then some (c.toNat + 4)
  else if c == '+' then some 62
  else if c == '/' then some 63
  else none

/-- The values of the characters of a text behind `count` others, the last `pads` of the passed
characters being equals signs that count. The last group has to be full or filled up. -/
def sextets? (count pads : Nat) : List Char → Option (List Nat)
  | [] => if count % 4 == 0 then some [] else none
  | c :: rest =>
    if c == '=' then
      if count % 4 < 2 then sextets? count pads rest
      else if 4 ≤ count % 4 + (pads + 1) then some []
      else sextets? count (pads + 1) rest
    else
      match sextetOf? c with
      | none => sextets? count pads rest
      | some value => (sextets? (count + 1) 0 rest).map (value :: ·)

/-- The bytes that groups of values stand for. -/
def bytesOfSextets : List Nat → List UInt8
  | a :: b :: c :: d :: rest =>
    (a * 4 + b / 16).toUInt8 :: (b % 16 * 16 + c / 4).toUInt8 :: (c % 4 * 64 + d).toUInt8
      :: bytesOfSextets rest
  | [a, b, c] => [(a * 4 + b / 16).toUInt8, (b % 16 * 16 + c / 4).toUInt8]
  | [a, b] => [(a * 4 + b / 16).toUInt8]
  | _ => []

/-- The bytes that a text in base 64 stands for. -/
def base64? (s : List Char) : Option (List UInt8) := (sextets? 0 0 s).map bytesOfSextets

end FileClerk.Text
