import FileClerk.Text.Basic
import FileClerk.Yaml.Cursor
import FileClerk.Yaml.Kind

/-!
# Styles of written scalars

A text is written plain if it reads back as the same text, between single quotes if that keeps its
spaces and line ends, and between double quotes with escapes otherwise. Only ASCII characters are
written. Long lines are folded at single spaces behind column 80, between double quotes at any place
with a backslash, but keys stay on one line.
-/

set_option autoImplicit false

namespace FileClerk.Yaml

open FileClerk.Text

/-- How a scalar is written. -/
inductive ScalarStyle where
  | plain
  | single
  | double
  deriving DecidableEq, Repr

/-! ## Choice of a style -/

/-- A character that a plain scalar may not start with. -/
def isLeadingMark (c : Char) : Bool := "#,[]\x7b\x7d&*!|>\x27\x22%@\x60".toList.contains c

/-- A character that only double quotes can show. -/
def needsEscape (c : Char) : Bool := !(c == '\n' || (32 ≤ c.toNat && c.toNat ≤ 126))

/-- A word ends here: at the end of the text, at a space, a tab or a line end. -/
def endsWord (c : Option Char) : Bool := c.all isGap

/-- A comment or a value would start inside the text; `before` is the character before it. -/
def hasInnerMark (before : Char) : List Char → Bool
  | [] => false
  | c :: rest =>
    (c == ':' && endsWord rest.head?) || (c == '#' && isGap before) || hasInnerMark c rest

/-- Characters of the text have a meaning of their own in block context. -/
def hasMark (s : List Char) : Bool :=
  match s with
  | [] => false
  | c :: rest =>
    s.take 3 == ['-', '-', '-'] || s.take 3 == ['.', '.', '.'] || isLeadingMark c
      || ((c == '?' || c == ':' || c == '-') && endsWord rest.head?) || hasInnerMark c rest

/-- A space or a line end is the first or the last character. -/
def hasOuterSpace (s : List Char) : Bool :=
  let isSpace (c : Char) : Bool := c == ' ' || c == '\n'
  s.head?.any isSpace || s.getLast?.any isSpace

/-- A character with one property comes right before a character with another one. -/
def hasPair (p q : Char → Bool) (s : List Char) : Bool :=
  (s.zip (s.drop 1)).any fun (a, b) => p a && q b

/-- The text has several lines. -/
def isMultiline (s : List Char) : Bool := s.any isBreak

/-- The text may be written plain as far as its characters go. -/
def admitsPlain (s : List Char) : Bool :=
  !hasOuterSpace s && !isMultiline s && !s.any needsEscape && !hasMark s

/-- The text may be written between single quotes. -/
def admitsSingle (s : List Char) : Bool :=
  !s.any needsEscape && !hasPair (· == ' ') (· == '\n') s && !hasPair (· == '\n') (· == ' ') s

/-- The style of a text; `readsBack` says that it is of the kind of its plain form, and an empty or
multiline key is not plain. -/
def styleOf (asKey readsBack : Bool) (s : List Char) : ScalarStyle :=
  if readsBack && !(asKey && (s.isEmpty || isMultiline s)) && admitsPlain s then .plain
  else if admitsSingle s && !(asKey && isMultiline s) then .single
  else .double

/-! ## Writing -/

/-- The column behind which lines are folded. -/
def bestWidth : Nat := 80

/-- A line end with an indentation. -/
def newLine (indent : Nat) : List Char := '\n' :: List.replicate indent ' '

/-- A text as it is written plain or, with apostrophes doubled, between single quotes. The next
character stands at `column` behind the character `before`. A single space between words is replaced
by a line end once it stands behind the best width, and the first of several line ends is written
twice. -/
def foldedText (fold apostrophes : Bool) (indent : Nat) :
    Option Char → Nat → List Char → List Char
  | _, _, [] => []
  | before, column, c :: rest =>
    if c == ' ' then
      let isSingle := before.any (· != ' ') && rest.head?.any (· != ' ')
      if fold && isSingle && bestWidth < column then
        newLine indent ++ foldedText fold apostrophes indent (some c) indent rest
      else c :: foldedText fold apostrophes indent (some c) (column + 1) rest
    else if c == '\n' then
      let ends := if before == some '\n' then [c] else [c, c]
      if rest.head? == some '\n' then
        ends ++ foldedText fold apostrophes indent (some c) 0 rest
      else
        ends ++ List.replicate indent ' '
          ++ foldedText fold apostrophes indent (some c) indent rest
    else if apostrophes && c == '\x27' then
      c :: c :: foldedText fold apostrophes indent (some c) (column + 2) rest
    else c :: foldedText fold apostrophes indent (some c) (column + 1) rest

/-- The letters of escapes between double quotes. -/
def escapeLetters : List (Char × Char) :=
  [('\x00', '0'), ('\x07', 'a'), ('\x08', 'b'), ('\t', 't'), ('\n', 'n'), ('\x0b', 'v'),
    ('\x0c', 'f'), ('\r', 'r'), ('\x1b', 'e'), ('\x22', '\x22'), ('\\', '\\'), ('\x85', 'N'),
    ('\xa0', '_'), ('\u2028', 'L'), ('\u2029', 'P')]

/-- A natural number in base sixteen with capital letters, filled with zeros up to a width. -/
def capitalHex (width n : Nat) : List Char := (hex width n).map Char.toUpper

/-- The escape of a character between double quotes, if it needs one. -/
def escapeOf? (c : Char) : Option (List Char) :=
  match escapeLetters.lookup c with
  | some letter => some ['\\', letter]
  | none =>
    if 32 ≤ c.toNat && c.toNat ≤ 126 then none
    else if c.toNat ≤ 0xff then some ('\\' :: 'x' :: capitalHex 2 c.toNat)
    else if c.toNat ≤ 0xffff then some ('\\' :: 'u' :: capitalHex 4 c.toNat)
    else some ('\\' :: 'U' :: capitalHex 8 c.toNat)

/-- The end of a line inside double quotes. A space that follows it is kept by a backslash. -/
def brokenLine (indent : Nat) (next : Option Char) : List Char :=
  '\\' :: newLine indent ++ (if next == some ' ' then ['\\'] else [])

/-- The column behind a broken line. -/
def brokenColumn (indent : Nat) (next : Option Char) : Nat :=
  indent + (if next == some ' ' then 1 else 0)

/-- A text as it is written between double quotes. The next character stands at `column`; `inner`
says that it is not the first one, and `escaped` that an escape has just been written. Inside the
text a line is broken before a space and at escapes. -/
def escapedText (fold : Bool) (indent : Nat) : Bool → Bool → Nat → List Char → List Char
  | _, _, _, [] => []
  | inner, escaped, column, c :: rest =>
    let mayBreak := fold && inner && !rest.isEmpty
    match escapeOf? c with
    | some text =>
      let column := column + text.length
      if mayBreak && bestWidth + 1 < column then
        text ++ brokenLine indent rest.head?
          ++ escapedText fold indent true true (brokenColumn indent rest.head?) rest
      else text ++ escapedText fold indent true true column rest
    | none =>
      if mayBreak && (c == ' ' || escaped) && bestWidth < column then
        brokenLine indent (some c)
          ++ c :: escapedText fold indent true false (brokenColumn indent (some c) + 1) rest
      else c :: escapedText fold indent true false (column + 1) rest

/-- A text in a style, from a column on. Further lines are indented by `indent`. -/
def styledText (fold : Bool) (indent column : Nat) (style : ScalarStyle) (s : List Char) :
    List Char :=
  match style with
  | .plain => foldedText fold false indent none column s
  | .single => '\x27' :: foldedText fold true indent none (column + 1) s ++ ['\x27']
  | .double => '\x22' :: escapedText fold indent false false (column + 1) s ++ ['\x22']

end FileClerk.Yaml
