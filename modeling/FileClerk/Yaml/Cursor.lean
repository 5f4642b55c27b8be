/-!
# Places in a YAML text

A cursor is a place in a text: what is left of the text, and the index, line and column of the
place. Lines end at line feeds, at next-line characters and at the two Unicode separators. A text is
prepared for reading by turning carriage returns into line feeds, and it is refused if it holds a
character that YAML does not allow.
-/

set_option autoImplicit false

namespace FileClerk.Yaml

/-! ## Characters -/

/-- A character that ends a line. -/
def isBreak (c : Char) : Bool := c == '\n' || c == '\x85' || c == '\u2028' || c == '\u2029'

/-- A character that ends a word: a space, a tab or the end of a line. -/
def isGap (c : Char) : Bool := c == ' ' || c == '\t' || isBreak c

/-- A character of a name of an anchor or a handle. -/
def isNameChar (c : Char) : Bool := c.isAlphanum || c == '-' || c == '_'

/-- A character that separates entries of collections in brackets. -/
def isFlowMark (c : Char) : Bool := ",?[]\x7b\x7d".toList.contains c

/-- A character that a text may hold. -/
def isAllowed (c : Char) : Bool :=
  c == '\t' || c == '\n' || c == '\x85' || (32 ≤ c.toNat && c.toNat ≤ 0x7e)
    || (0xa0 ≤ c.toNat && c.toNat ≤ 0xfffd) || 0x10000 ≤ c.toNat

/-- The text with a line feed for every carriage return, alone or before a line feed. -/
def withLineFeeds : List Char → List Char
  | [] => []
  | '\r' :: '\n' :: rest => '\n' :: withLineFeeds rest
  | c :: rest => (if c == '\r' then '\n' else c) :: withLineFeeds rest

/-! ## Cursors -/

/-- A place in a text. -/
structure Cursor where
  rest : List Char
  index : Nat
  line : Nat
  column : Nat
  deriving Repr

namespace Cursor

/-- The start of a text. -/
def start (text : List Char) : Cursor := ⟨text, 0, 0, 0⟩

/-- The character a number of places ahead. -/
def ahead (cursor : Cursor) (n : Nat) : Option Char := cursor.rest[n]?

/-- The character at the place. -/
def next (cursor : Cursor) : Option Char := cursor.rest.head?

/-- The place behind the next character. A byte order mark takes up no column. -/
def step (cursor : Cursor) : Cursor :=
  match cursor.rest with
  | [] => cursor
  | c :: rest =>
    if isBreak c then ⟨rest, cursor.index + 1, cursor.line + 1, 0⟩
    else
      ⟨rest, cursor.index + 1, cursor.line,
        if c == '\ufeff' then cursor.column else cursor.column + 1⟩

/-- The place behind a number of characters. -/
def skip : Nat → Cursor → Cursor
  | 0, cursor => cursor
  | n + 1, cursor => skip n cursor.step

/-- The characters up to the first one without a property. -/
def run (p : Char → Bool) (cursor : Cursor) : List Char := cursor.rest.takeWhile p

/-- The place of the first character without a property. -/
def skipRun (p : Char → Bool) (cursor : Cursor) : Cursor := cursor.skip (cursor.run p).length

/-- The next character is a given one. -/
def isAt (cursor : Cursor) (c : Char) : Bool := cursor.next == some c

/-- The place is the end of the text or of a line. -/
def atLineEnd (cursor : Cursor) : Bool := cursor.next.all isBreak

/-- The place is the end of the text or of a line, or at a space. -/
def atSpace (cursor : Cursor) : Bool := cursor.next.all fun c => c == ' ' || isBreak c

/-- The text ends a number of places ahead, or a word does. -/
def gapAhead (cursor : Cursor) (n : Nat) : Bool := (cursor.ahead n).all isGap

/-- The place is at a mark that starts or ends a document. -/
def atDocumentMark (cursor : Cursor) : Bool :=
  let mark := cursor.rest.take 3
  (mark == ['-', '-', '-'] || mark == ['.', '.', '.']) && cursor.gapAhead 3

/-- The end of a line at the place, as it counts in a scalar, with the place behind it. -/
def takeBreak? (cursor : Cursor) : Option (Char × Cursor) :=
  match cursor.next with
  | none => none
  | some c =>
    if isBreak c then some (if c == '\x85' then '\n' else c, cursor.step) else none

/-- The place behind spaces, a comment and the end of the line, unless anything else stands
there. -/
def finishLine? (cursor : Cursor) : Option Cursor :=
  let cursor := cursor.skipRun (· == ' ')
  let cursor := if cursor.isAt '#' then cursor.skipRun (!isBreak ·) else cursor
  if cursor.atLineEnd then some ((cursor.takeBreak?.map (·.2)).getD cursor) else none

end Cursor

end FileClerk.Yaml
