import FileClerk.Text.Basic

/-!
# Quoted texts

The form in which a text is shown inside a message. It stands between apostrophes, or between
double quotes if it holds an apostrophe and no double quote. The quote in use, the backslash, line
feeds, carriage returns and tabs are escaped, and so is every character without a printed form.
Bytes are shown in the same way behind a letter.
-/

set_option autoImplicit false

namespace FileClerk.Text

/-- The quote that `s` is shown between. -/
def quoteOf (s : List Char) : Char :=
  if s.contains '\x27' && !s.contains '\x22' then '\x22' else '\x27'

/-- The escape that gives the number of a character. -/
def escapedChar (c : Char) : List Char :=
  if c.toNat < 0x100 then '\\' :: 'x' :: hex 2 c.toNat
  else if c.toNat < 0x10000 then '\\' :: 'u' :: hex 4 c.toNat
  else '\\' :: 'U' :: hex 8 c.toNat

/-- A character as it is shown between two copies of `quote`. -/
def showChar (quote c : Char) : List Char :=
  if c == quote || c == '\\' then ['\\', c]
  else if c == '\n' then ['\\', 'n']
  else if c == '\r' then ['\\', 'r']
  else if c == '\t' then ['\\', 't']
  else if isPrintable c then [c]
  else escapedChar c

/-- The text `s` between quotes. -/
def quoted (s : String) : String :=
  let quote := quoteOf s.toList
  String.ofList (quote :: s.toList.flatMap (showChar quote) ++ [quote])

/-- A byte as it is shown between two copies of `quote`; only ASCII characters are printed. -/
def showByte (quote : Char) (byte : UInt8) : List Char :=
  if byte < 127 then showChar quote (Char.ofNat byte.toNat)
  else '\\' :: 'x' :: hex 2 byte.toNat

/-- The string `bytes` between quotes. -/
def quotedBytes (bytes : List UInt8) : String :=
  let quote := quoteOf (bytes.map fun byte => Char.ofNat byte.toNat)
  String.ofList ('b' :: quote :: bytes.flatMap (showByte quote) ++ [quote])

end FileClerk.Text
