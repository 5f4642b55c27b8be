import FileClerk.Text.Basic
import FileClerk.Value.Shown

/-!
# Writing JSON

Values as JSON text of ASCII characters: every other character is escaped by its UTF-16 units. The
compact form stands on one line, with a space after each comma and colon. The indented form puts
every entry on a line of its own. A value without a form in JSON is written as the text that it has
in messages.
-/

set_option autoImplicit false

namespace FileClerk.Json

open FileClerk.Text

/-- The escape `\uXXXX` of a UTF-16 unit. -/
def unitEscape (unit : Nat) : List Char := '\\' :: 'u' :: hex 4 unit

/-- A character inside a string. -/
def stringChar (c : Char) : List Char :=
  if c == '\x22' then ['\\', '\x22']
  else if c == '\\' then ['\\', '\\']
  else if c == '\n' then ['\\', 'n']
  else if c == '\r' then ['\\', 'r']
  else if c == '\t' then ['\\', 't']
  else if c == '\x0c' then ['\\', 'f']
  else if c == '\x08' then ['\\', 'b']
  else if 32 ≤ c.toNat && c.toNat < 127 then [c]
  else if c.toNat < 0x10000 then unitEscape c.toNat
  else
    let n := c.toNat - 0x10000
    unitEscape (0xd800 + n / 0x400) ++ unitEscape (0xdc00 + n % 0x400)

/-- The JSON string of `s`. -/
def string (s : String) : String :=
  String.ofList ('\x22' :: s.toList.flatMap stringChar ++ ['\x22'])

/-- A scalar; a number that is not finite has a name. -/
def scalar : Value → String
  | .null => "null"
  | .bool b => if b then "true" else "false"
  | .int n => toString n
  | .float .nan => "NaN"
  | .float (.infinite negative) => if negative then "-Infinity" else "Infinity"
  | .float x => x.text
  | .text s => string s
  | value => string value.plain

/-- The key `"k"` of an entry, which is always a string. -/
def key : Value → String
  | .text s => string s
  | value => string (scalar value)

mutual

/-- A value on one line. -/
def compact : Value → String
  | .list items => "[" ++ ", ".intercalate (compactItems items) ++ "]"
  | .tuple items => "[" ++ ", ".intercalate (compactItems items) ++ "]"
  | .map entries => "\x7b" ++ ", ".intercalate (compactEntries entries) ++ "\x7d"
  | value => scalar value

/-- The items of a list, each on one line. -/
def compactItems : List Value → List String
  | [] => []
  | item :: rest => compact item :: compactItems rest

/-- The entries of a mapping, each on one line. -/
def compactEntries : List (Value × Value) → List String
  | [] => []
  | (k, v) :: rest => (key k ++ ": " ++ compact v) :: compactEntries rest

end

/-- A line feed and an indentation of two spaces a level. -/
def newline (level : Nat) : String := String.ofList ('\n' :: List.replicate (2 * level) ' ')

/-- Entries between brackets, each on a line of its own; no entries stay on one line. -/
def block (level : Nat) (opening closing : String) (entries : List String) : String :=
  if entries.isEmpty then opening ++ closing
  else opening ++ newline (level + 1) ++ ("," ++ newline (level + 1)).intercalate entries
    ++ newline level ++ closing

mutual

/-- A value with every entry on a line of its own, inside `level` brackets. -/
def indented (level : Nat) : Value → String
  | .list items => block level "[" "]" (indentedItems (level + 1) items)
  | .tuple items => block level "[" "]" (indentedItems (level + 1) items)
  | .map entries => block level "\x7b" "\x7d" (indentedEntries (level + 1) entries)
  | value => scalar value

/-- The items of a list, indented. -/
def indentedItems (level : Nat) : List Value → List String
  | [] => []
  | item :: rest => indented level item :: indentedItems level rest

/-- The entries of a mapping, indented. -/
def indentedEntries (level : Nat) : List (Value × Value) → List String
  | [] => []
  | (k, v) :: rest => (key k ++ ": " ++ indented level v) :: indentedEntries level rest

end

end FileClerk.Json
