import FileClerk.Yaml.Cursor
import FileClerk.Yaml.Fault

/-!
# Plain and quoted scalars

A plain scalar ends where a comment, a mapping value or, in brackets, an entry may follow. A quoted
scalar ends at its quote. In both, one line feed between words counts as a space, and of several
line feeds all but the first count. Double quotes allow escapes.

Each reader takes a cursor and gives the text with the place behind it. The loops are bounded by the
length of what is left.
-/

set_option autoImplicit false

namespace FileClerk.Yaml

open FileClerk.Number

/-- The text that a stretch of line ends counts for, given the first of them and the others. -/
def foldedBreaks (first : Char) (others : List Char) : List Char :=
  if first != '\n' then first :: others else if others.isEmpty then [' '] else others

/-! ## Plain scalars -/

/-- A colon ends a plain scalar before this character. -/
def endsKey (inFlow : Bool) (c : Option Char) : Bool :=
  c.all fun c => isGap c || (inFlow && c != '?' && isFlowMark c)

/-- The characters of a plain scalar up to the end of a word. -/
def plainRun (inFlow : Bool) : List Char → List Char
  | [] => []
  | c :: rest =>
    if isGap c || (c == ':' && endsKey inFlow rest.head?) || (inFlow && isFlowMark c) then []
    else c :: plainRun inFlow rest

/-- The line ends at a place, with spaces between them, unless a document mark follows one. -/
def plainBreaks : Nat → Cursor → Option (List Char) × Cursor
  | 0, cursor => (some [], cursor)
  | fuel + 1, cursor =>
    if cursor.isAt ' ' then plainBreaks fuel cursor.step
    else
      match cursor.takeBreak? with
      | none => (some [], cursor)
      | some (c, cursor) =>
        if cursor.atDocumentMark then (none, cursor)
        else
          let (breaks, cursor) := plainBreaks fuel cursor
          (breaks.map (c :: ·), cursor)

/-- What stands between two words of a plain scalar. -/
structure PlainGap where
  text : List Char
  cursor : Cursor
  overLines : Bool

/-- The gap at a place; its text is empty if the scalar ends there. -/
def plainGap (cursor : Cursor) : PlainGap :=
  let spaces := cursor.run (· == ' ')
  let cursor := cursor.skipRun (· == ' ')
  match cursor.takeBreak? with
  | none => ⟨spaces, cursor, false⟩
  | some (first, cursor) =>
    if cursor.atDocumentMark then ⟨[], cursor, true⟩
    else
      match plainBreaks cursor.rest.length cursor with
      | (none, cursor) => ⟨[], cursor, true⟩
      | (some others, cursor) => ⟨foldedBreaks first others, cursor, true⟩

/-- A scalar that has been read, the place behind it, and whether that is the start of a line on
which a key may stand. -/
structure PlainScalar where
  text : List Char
  cursor : Cursor
  atLineStart : Bool

/-- The plain scalar that continues `before` at a place. In block context it ends at a line that
is indented less than `indent`. -/
def plainFrom (inFlow : Bool) (indent : Nat) : Nat → PlainScalar → List Char → PlainScalar
  | 0, before, _ => before
  | fuel + 1, before, pending =>
    let word := plainRun inFlow before.cursor.rest
    if before.cursor.isAt '#' || word.isEmpty then before
    else
      let gap := plainGap (before.cursor.skip word.length)
      let now : PlainScalar := ⟨before.text ++ pending ++ word, gap.cursor, gap.overLines⟩
      if gap.text.isEmpty || gap.cursor.isAt '#' || (!inFlow && gap.cursor.column < indent) then now
      else plainFrom inFlow indent fuel now gap.text

/-- The plain scalar at a place. -/
def plainScalar (inFlow : Bool) (indent : Nat) (cursor : Cursor) : PlainScalar :=
  plainFrom inFlow indent cursor.rest.length ⟨[], cursor, false⟩ []

/-! ## Quoted scalars -/

/-- The character that a one-letter escape stands for. -/
def escapes : List (Char × Char) :=
  [('0', '\x00'), ('a', '\x07'), ('b', '\x08'), ('t', '\t'), ('\t', '\t'), ('n', '\n'),
    ('v', '\x0b'), ('f', '\x0c'), ('r', '\r'), ('e', '\x1b'), (' ', ' '), ('\x22', '\x22'),
    ('\\', '\\'), ('/', '/'), ('N', '\x85'), ('_', '\xa0'), ('L', '\u2028'), ('P', '\u2029')]

/-- The number of hexadecimal digits behind the letter of an escape. -/
def escapeDigits : List (Char × Nat) := [('x', 2), ('u', 4), ('U', 8)]

/-- The character with a code; a surrogate counts as the replacement character. -/
def charOf (code : Nat) : Except Fault Char :=
  if 0xd800 ≤ code && code < 0xe000 then .ok '\ufffd'
  else if code < 0x110000 then .ok (Char.ofNat code)
  else .error (.noCharacter code)

/-- The further line ends at a place in a quoted scalar; a document mark is not allowed there. -/
def quotedBreaks? : Nat → Cursor → Option (List Char × Cursor)
  | 0, cursor => some ([], cursor)
  | fuel + 1, cursor =>
    if cursor.atDocumentMark then none
    else
      let cursor := cursor.skipRun fun c => c == ' ' || c == '\t'
      match cursor.takeBreak? with
      | none => some ([], cursor)
      | some (c, cursor) =>
        (quotedBreaks? fuel cursor).map fun (more, cursor) => (c :: more, cursor)

/-- What stands between two words of a quoted scalar, which must not end here. -/
def quotedGap? (cursor : Cursor) : Option (List Char × Cursor) :=
  let spaces := cursor.run fun c => c == ' ' || c == '\t'
  let cursor := cursor.skip spaces.length
  match cursor.takeBreak? with
  | none => if cursor.rest.isEmpty then none else some (spaces, cursor)
  | some (first, cursor) =>
    (quotedBreaks? (cursor.rest.length + 1) cursor).map fun (others, cursor) =>
      (foldedBreaks first others, cursor)

/-- The text of an escape behind its backslash. An escaped line end joins two lines. -/
def escape (cursor : Cursor) : Except Fault (List Char × Cursor) := do
  let c ← orMalformed cursor.next
  match escapes.lookup c, escapeDigits.lookup c with
  | some x, _ => return ([x], cursor.step)
  | none, some count =>
    let digits := cursor.step.rest.take count
    if digits.length < count then .error .malformed
    else
      let x ← charOf (← orMalformed (natural? 16 digits))
      return ([x], cursor.skip (count + 1))
  | none, none =>
    let (_, cursor) ← orMalformed cursor.takeBreak?
    orMalformed (quotedBreaks? (cursor.rest.length + 1) cursor)

/-- The characters of a quoted scalar up to a gap or its closing quote. -/
def quotedRun (double : Bool) : Nat → Cursor → Except Fault (List Char × Cursor)
  | 0, cursor => .ok ([], cursor)
  | fuel + 1, cursor =>
    match cursor.next with
    | none => .ok ([], cursor)
    | some c =>
      if isGap c then .ok ([], cursor)
      else if !double && c == '\x27' then
        if cursor.ahead 1 == some '\x27' then do
          let (more, cursor) ← quotedRun double fuel (cursor.skip 2)
          return (c :: more, cursor)
        else .ok ([], cursor)
      else if double && c == '\x22' then .ok ([], cursor)
      else if double && c == '\\' then do
        let (text, cursor) ← escape cursor.step
        let (more, cursor) ← quotedRun double fuel cursor
        return (text ++ more, cursor)
      else do
        let (more, cursor) ← quotedRun double fuel cursor.step
        return (c :: more, cursor)

/-- The quoted scalar from a place between its quotes on. -/
def quotedFrom (double : Bool) : Nat → Cursor → Except Fault (List Char × Cursor)
  | 0, _ => .error .malformed
  | fuel + 1, cursor => do
    let (word, cursor) ← quotedRun double cursor.rest.length cursor
    if cursor.isAt (if double then '\x22' else '\x27') then return (word, cursor.step)
    else
      let (gap, cursor) ← orMalformed (quotedGap? cursor)
      let (more, cursor) ← quotedFrom double fuel cursor
      return (word ++ gap ++ more, cursor)

/-- The quoted scalar at a place. -/
def quotedScalar (double : Bool) (cursor : Cursor) : Except Fault (List Char × Cursor) :=
  quotedFrom double (cursor.rest.length + 1) cursor.step

end FileClerk.Yaml
