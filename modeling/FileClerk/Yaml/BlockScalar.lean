import FileClerk.Number.Literal
import FileClerk.Yaml.Cursor

/-!
# Block scalars

A block scalar stands on indented lines below its header. The header says whether line ends are kept
or folded, how the last ones are treated, and by how much the lines are indented; without that, the
first line that is not blank sets the indentation.
-/

set_option autoImplicit false

namespace FileClerk.Yaml

open FileClerk.Number

/-- What happens to the line ends at the end of a block scalar. -/
inductive Chomping where
  | strip
  | clip
  | keep
  deriving DecidableEq, Repr

/-- The header of a block scalar. -/
structure BlockHeader where
  chomping : Chomping
  increment : Option Nat
  deriving DecidableEq, Repr

/-- The chomping mark at a place. -/
def takeChomping (cursor : Cursor) : Option Chomping × Cursor :=
  match cursor.next with
  | some '+' => (some .keep, cursor.step)
  | some '-' => (some .strip, cursor.step)
  | _ => (none, cursor)

/-- The indentation mark at a place, which is a digit other than zero. -/
def takeIncrement? (cursor : Cursor) : Option (Option Nat × Cursor) :=
  match cursor.next with
  | none => some (none, cursor)
  | some c =>
    if !c.isDigit then some (none, cursor)
    else if c == '0' then none
    else some (digitOf? 10 c, cursor.step)

/-- The header behind the mark of a block scalar, with the place where its lines start. The two
marks may come in either order. -/
def blockHeader? (cursor : Cursor) : Option (BlockHeader × Cursor) := do
  let (before, cursor) := takeChomping cursor
  let (increment, cursor) ← takeIncrement? cursor
  let (behind, cursor) := if before.isNone && increment.isSome then takeChomping cursor
    else (none, cursor)
  if !cursor.atSpace then none
  else
    let cursor ← cursor.finishLine?
    some (⟨(before.or behind).getD .clip, increment⟩, cursor)

/-- The place behind spaces, at most up to a column. -/
def Cursor.indentTo (column : Nat) (cursor : Cursor) : Cursor :=
  cursor.skip (min (cursor.run (· == ' ')).length (column - cursor.column))

/-- The line ends before the first line that is not blank, and the widest indentation up to it. -/
def leadingBreaks (widest : Nat) : Nat → Cursor → List Char × Nat × Cursor
  | 0, cursor => ([], widest, cursor)
  | fuel + 1, cursor =>
    if cursor.isAt ' ' then leadingBreaks (max widest cursor.step.column) fuel cursor.step
    else
      match cursor.takeBreak? with
      | none => ([], widest, cursor)
      | some (c, cursor) =>
        let (more, widest, cursor) := leadingBreaks widest fuel cursor
        (c :: more, widest, cursor)

/-- The line ends of blank lines at a place, with the place where the next line's text starts. -/
def blankLines (indent : Nat) : Nat → Cursor → List Char × Cursor
  | 0, cursor => ([], cursor)
  | fuel + 1, cursor =>
    let cursor := cursor.indentTo indent
    match cursor.takeBreak? with
    | none => ([], cursor)
    | some (c, cursor) =>
      let (more, cursor) := blankLines indent fuel cursor
      (c :: more, cursor)

/-- The lines of a block scalar: its text, the end of its last line, the line ends behind it, and
the place behind all of them. -/
structure BlockLines where
  text : List Char
  lastBreak : List Char
  trailing : List Char
  cursor : Cursor

/-- A line of the scalar starts at the place. -/
def startsLine (indent : Nat) (cursor : Cursor) : Bool :=
  cursor.column == indent && !cursor.rest.isEmpty

/-- The next character is neither a space nor a tab. -/
def atText (cursor : Cursor) : Bool := !(cursor.isAt ' ' || cursor.isAt '\t')

/-- The lines from a place on, behind blank lines with the line ends `breaks`. -/
def blockLines (folded : Bool) (indent : Nat) : Nat → List Char → Cursor → BlockLines
  | 0, breaks, cursor => ⟨[], [], breaks, cursor⟩
  | fuel + 1, breaks, cursor =>
    if !startsLine indent cursor then ⟨[], [], breaks, cursor⟩
    else
      let text := cursor.run (!isBreak ·)
      let behind := cursor.skip text.length
      let (lineEnd, next) := match behind.takeBreak? with
        | some (c, next) => ([c], next)
        | none => ([], behind)
      let (blanks, next) := blankLines indent (next.rest.length + 1) next
      if startsLine indent next then
        let glue := if folded && lineEnd == ['\n'] && atText cursor && atText next then
          (if blanks.isEmpty then [' '] else []) else lineEnd
        let more := blockLines folded indent fuel blanks next
        { more with text := breaks ++ text ++ glue ++ more.text }
      else ⟨breaks ++ text, lineEnd, blanks, next⟩

/-- The block scalar at a place, inside a collection that is indented by `outer`. -/
def blockScalar? (folded : Bool) (outer : Int) (cursor : Cursor) : Option (List Char × Cursor) := do
  let (header, cursor) ← blockHeader? cursor.step
  let least := max (outer + 1) 1
  let fuel := cursor.rest.length + 1
  let (breaks, indent, cursor) := match header.increment with
    | some n =>
      let indent := (least + n - 1).toNat
      let (breaks, cursor) := blankLines indent fuel cursor
      (breaks, indent, cursor)
    | none =>
      let (breaks, widest, cursor) := leadingBreaks 0 fuel cursor
      (breaks, max least.toNat widest, cursor)
  let lines := blockLines folded indent fuel breaks cursor
  let text := match header.chomping with
    | .strip => lines.text
    | .clip => lines.text ++ lines.lastBreak
    | .keep => lines.text ++ lines.lastBreak ++ lines.trailing
  some (text, lines.cursor)

end FileClerk.Yaml
