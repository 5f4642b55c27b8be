import FileClerk.Text.Table.Mapping
import FileClerk.Text.Basic

/-!
# Letter case

Lower-case, upper-case and case-folded forms of a text. A form may be longer than the text, and the
lower-case form of a capital sigma depends on its neighbours: at the end of a word it is the final
sigma. All other characters are mapped one by one.

`foldLetter` is a coarser map that keeps lengths. It sends every character that a reader takes for
a Latin letter, whatever its case, to that letter in lower case.
-/

set_option autoImplicit false

namespace FileClerk.Text

/-- The image of a non-ASCII character under the mapping of `runs` and `expansions`. -/
def mapCase (runs : List CaseRun) (expansions : List (Nat × List Nat)) (c : Char) : List Char :=
  match expansionOf expansions c.toNat with
  | some image => image.map Char.ofNat
  | none => [Char.ofNat (moveBy runs c.toNat)]

/-- The lower-case form of `c` by itself. -/
def lowerChar (c : Char) : List Char :=
  if c.toNat < 128 then [c.toLower] else mapCase lowerRuns lowerExpansions c

/-- The upper-case form of `c`. -/
def upperChar (c : Char) : List Char :=
  if c.toNat < 128 then [c.toUpper] else mapCase upperRuns upperExpansions c

/-- The case-folded form of `c`. -/
def foldChar (c : Char) : List Char :=
  if c.toNat < 128 then [c.toLower] else mapCase foldRuns foldExpansions c

/-- The first character of `s` that is not `isCaseIgnorable` is `isCased`. -/
def meetsCased (s : List Char) : Bool := (s.find? fun c => !isCaseIgnorable c).any isCased

/-- A sigma between the reversed text `before` and the text `after` ends a word. -/
def endsWord (before after : List Char) : Bool := meetsCased before && !meetsCased after

/-- The lower-case form of a text that follows the reversed text `before`. -/
def lowerAfter (before : List Char) : List Char → List Char
  | [] => []
  | c :: rest =>
    (if c == 'Σ' then [if endsWord before rest then 'ς' else 'σ'] else lowerChar c)
      ++ lowerAfter (c :: before) rest

/-- The lower-case form of `s`. -/
def lower (s : List Char) : List Char := lowerAfter [] s

/-- The upper-case form of `s`. -/
def upper (s : List Char) : List Char := s.flatMap upperChar

/-- The case-folded form of `s`, by which names are put in order. -/
def foldCase (s : List Char) : List Char := s.flatMap foldChar

/-- The Latin letter in lower case that a character stands for when letter case is ignored; other
characters stand for themselves. The dotted and dotless i, the long s and the kelvin sign stand for
`i`, `s` and `k`. -/
def foldLetter (c : Char) : Char :=
  if c.toNat < 128 then c.toLower
  else if c == 'İ' || c == 'ı' then 'i'
  else if c == 'ſ' then 's'
  else if c.toNat == 0x212a then 'k'
  else c

/-- The text `s` is spelled like `word` under `foldLetter`; `word` is in lower case. -/
def spells (word s : List Char) : Bool := s.map foldLetter == word

/-- What follows `word` at the start of a text, letter case ignored; `word` is in lower case. -/
def afterLetters : List Char → List Char → Option (List Char)
  | [], s => some s
  | _ :: _, [] => none
  | w :: word, c :: s => if foldLetter c == w then afterLetters word s else none

end FileClerk.Text
