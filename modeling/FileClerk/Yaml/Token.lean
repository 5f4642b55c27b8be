import FileClerk.Yaml.BlockScalar
import FileClerk.Yaml.FlowScalar

/-!
# Tokens of YAML

The tokens of a text, and the readers of those that carry names: anchors, tags and directives. Where
a text has no further token, the reason stands in its place.
-/

set_option autoImplicit false

namespace FileClerk.Yaml

open FileClerk.Number

/-- A line that starts with a percent sign. -/
inductive Directive where
  | version (major : Nat)
  | handle (name meaning : String)
  | other
  deriving DecidableEq, Repr

/-- A token. Block collections start and end where the indentation says so. -/
inductive Token where
  | directive (d : Directive)
  | documentStart
  | documentEnd
  | blockSequence
  | blockMapping
  | blockEnd
  | openBracket
  | closeBracket
  | openBrace
  | closeBrace
  | comma
  | dash
  | key
  | value
  | alias (name : String)
  | anchor (name : String)
  | tag (handle : Option String) (suffix : String)
  | scalar (text : String) (plain : Bool)
  | failure (fault : Fault)
  deriving DecidableEq, Repr

/-! ## Anchors -/

/-- The name behind the mark of an anchor or an alias. -/
def anchorName? (cursor : Cursor) : Option (String × Cursor) :=
  let name := cursor.step.run isNameChar
  let behind := cursor.step.skip name.length
  if name.isEmpty then none
  else if behind.next.all fun c => isGap c || "?:,]\x7d%@\x60".toList.contains c then
    some (String.ofList name, behind)
  else none

/-! ## Tags -/

/-- A character of the address of a tag. -/
def isAddressChar (c : Char) : Bool :=
  c.isAlphanum || "-;/?:@&=+$,_.!~*\x27()[]%".toList.contains c

/-- The bytes of escapes in an address, each a percent sign and two hexadecimal digits. -/
def addressBytes? : Nat → List Char → Option (List UInt8 × List Char)
  | 0, s => some ([], s)
  | fuel + 1, s =>
    match s with
    | '%' :: a :: b :: rest => do
      let n ← natural? 16 [a, b]
      let (more, rest) ← addressBytes? fuel rest
      some (n.toUInt8 :: more, rest)
    | '%' :: _ => none
    | _ => some ([], s)

/-- The address that a stretch of characters stands for. -/
def addressText? : Nat → List Char → Option (List Char)
  | 0, _ => none
  | _ + 1, [] => some []
  | fuel + 1, c :: rest =>
    if c == '%' then do
      let (bytes, behind) ← addressBytes? (c :: rest).length (c :: rest)
      let text ← String.fromUTF8? ⟨bytes.toArray⟩
      let more ← addressText? fuel behind
      some (text.toList ++ more)
    else (addressText? fuel rest).map (c :: ·)

/-- The address at a place, which is not empty. -/
def address? (cursor : Cursor) : Option (String × Cursor) :=
  let chars := cursor.run isAddressChar
  if chars.isEmpty then none
  else
    (addressText? (chars.length + 1) chars).map fun text =>
      (String.ofList text, cursor.skip chars.length)

/-- The handle at a place: an exclamation mark, or a name between two of them. -/
def handle? (cursor : Cursor) : Option (String × Cursor) :=
  if !cursor.isAt '!' then none
  else if cursor.ahead 1 == some ' ' then some ("!", cursor.step)
  else
    let name := cursor.step.run isNameChar
    let behind := cursor.step.skip name.length
    if behind.isAt '!' then some ("!" ++ String.ofList name ++ "!", behind.step) else none

/-- The tag at a place. -/
def tag? (cursor : Cursor) : Option (Token × Cursor) := do
  let (token, behind) ←
    if cursor.ahead 1 == some '<' then do
      let (suffix, behind) ← address? (cursor.skip 2)
      if behind.isAt '>' then some (Token.tag none suffix, behind.step) else none
    else if cursor.gapAhead 1 then some (Token.tag none "!", cursor.step)
    else do
      let word := cursor.step.run fun c => !(c == ' ' || isBreak c)
      let (handle, behind) ← if word.contains '!' then handle? cursor else some ("!", cursor.step)
      let (suffix, behind) ← address? behind
      some (Token.tag (some handle) suffix, behind)
  if behind.atSpace then some (token, behind) else none

/-! ## Directives -/

/-- The number at a place. -/
def number (cursor : Cursor) : Except Fault (Nat × Cursor) := do
  let digits := cursor.run Char.isDigit
  let n ← (integerIn 10 digits).mapError fun
    | .tooLong count => .notAnInteger (String.ofList digits) (.tooLong count)
    | .malformed _ => .malformed
  return (n.toNat, cursor.skip digits.length)

/-- The version at a place: two numbers with a point between them. -/
def version (cursor : Cursor) : Except Fault (Directive × Cursor) := do
  let (major, cursor) ← number (cursor.skipRun (· == ' '))
  if !cursor.isAt '.' then .error .malformed
  else
    let (_, cursor) ← number cursor.step
    if cursor.atSpace then return (.version major, cursor) else .error .malformed

/-- The handle at a place with its meaning. -/
def handleMeaning? (cursor : Cursor) : Option (Directive × Cursor) := do
  let (name, cursor) ← handle? (cursor.skipRun (· == ' '))
  if !cursor.isAt ' ' then none
  else
    let (meaning, cursor) ← address? (cursor.skipRun (· == ' '))
    if cursor.atSpace then some (.handle name meaning, cursor) else none

/-- The directive at a place, up to the end of its line. -/
def directive (cursor : Cursor) : Except Fault (Token × Cursor) := do
  let name := cursor.step.run isNameChar
  let behind := cursor.step.skip name.length
  if name.isEmpty || !behind.atSpace then .error .malformed
  else
    let (d, behind) ← if name == "YAML".toList then version behind
      else if name == "TAG".toList then orMalformed (handleMeaning? behind)
      else pure (.other, behind.skipRun (!isBreak ·))
    let behind ← orMalformed behind.finishLine?
    return (.directive d, behind)

end FileClerk.Yaml
