import FileClerk.Value.Shown
import FileClerk.Yaml.ScalarStyle

/-!
# Writing YAML

A mapping as a YAML text in block style: every entry stands on a line of its own, collections inside
it are indented by two columns more, and a sequence under a key is not indented. A key that is
empty, long or of several lines is marked. Empty collections are written as brackets. Settings hold
texts, numbers, truth values, lists and mappings only; any other value is written as its text.
-/

set_option autoImplicit false

namespace FileClerk.Yaml

open FileClerk.Number

/-! ## Scalars -/

/-- A binary number; its scientific form always has a point. -/
def floatText (x : Binary64) : String :=
  match x with
  | .nan => ".nan"
  | .infinite negative => if negative then "-.inf" else ".inf"
  | x =>
    let s := x.text.toList
    if s.contains '.' then x.text
    else String.ofList (s.takeWhile (· != 'e') ++ ['.', '0'] ++ s.dropWhile (· != 'e'))

/-- The text of a scalar, before a style is chosen. -/
def scalarText : Value → String
  | .null => "null"
  | .bool b => if b then "true" else "false"
  | .float x => floatText x
  | value => value.plain

/-- The name of the tag of a scalar. -/
def tagName : Value → String
  | .null => "null"
  | .bool _ => "bool"
  | .int _ => "int"
  | .float _ => "float"
  | .date _ => "timestamp"
  | .moment _ => "timestamp"
  | _ => "str"

/-- The plain form of a scalar reads back as that scalar; of a text it may read as another kind. -/
def readsBack : Value → Bool
  | .text s => Kind.ofPlain s == .text
  | _ => true

/-- A scalar from a column on. Further lines are indented by `indent`. -/
def scalarFrom (asKey : Bool) (indent column : Nat) (value : Value) : List Char :=
  let s := (scalarText value).toList
  styledText (!asKey) indent column (styleOf asKey (readsBack value) s) s

/-- The most characters of a key that is not marked, with those of its tag. -/
def maxKeyLength : Nat := 127

/-- The key needs no mark. -/
def isSimpleKey (value : Value) : Bool :=
  let s := (scalarText value).toList
  !s.isEmpty && !isMultiline s && s.length + (tagName value).length + 2 ≤ maxKeyLength

/-! ## Collections -/

/-- An indentation. -/
def spaces (indent : Nat) : List Char := List.replicate indent ' '

/-- Entries of a collection, the first one where it stands and the others on lines of their own. -/
def onLines (indent : Nat) (entries : List (List Char)) : List Char :=
  (newLine indent).intercalate entries

mutual

/-- A value behind a mark, from the column `indent` on. -/
def valueAt (indent : Nat) : Value → List Char
  | .list items => if items.isEmpty then ['[', ']'] else onLines indent (itemLines indent items)
  | .map entries =>
    if entries.isEmpty then ['\x7b', '\x7d'] else onLines indent (entryLines indent entries)
  | value => scalarFrom false indent indent value

/-- The items of a sequence, each behind a hyphen at a column. -/
def itemLines (indent : Nat) : List Value → List (List Char)
  | [] => []
  | item :: rest => ('-' :: ' ' :: valueAt (indent + 2) item) :: itemLines indent rest

/-- The entries of a mapping at a column. -/
def entryLines (indent : Nat) : List (Value × Value) → List (List Char)
  | [] => []
  | (key, value) :: rest =>
    let entry :=
      if isSimpleKey key then
        let start := scalarFrom true (indent + 2) indent key ++ [':']
        start ++ behindKey indent (indent + start.length + 1) value
      else '?' :: ' ' :: scalarFrom false (indent + 2) (indent + 2) key ++ newLine indent
        ++ ':' :: ' ' :: valueAt (indent + 2) value
    entry :: entryLines indent rest

/-- A value behind a key of a mapping at the column `indent`; a scalar would start at `column`. -/
def behindKey (indent column : Nat) : Value → List Char
  | .list items =>
    if items.isEmpty then [' ', '[', ']']
    else newLine indent ++ onLines indent (itemLines indent items)
  | .map entries =>
    if entries.isEmpty then [' ', '\x7b', '\x7d']
    else newLine (indent + 2) ++ onLines (indent + 2) (entryLines (indent + 2) entries)
  | value => ' ' :: scalarFrom false (indent + 2) column value

end

/-- The text of a value. -/
def write (value : Value) : String := String.ofList (valueAt 0 value ++ ['\n'])

end FileClerk.Yaml
