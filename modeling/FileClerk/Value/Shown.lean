import FileClerk.Text.Quoted
import FileClerk.Value.Basic

/-!
# Values in messages

The text of a value inside a message. Texts are quoted, lists stand in square brackets and mappings
in braces, entries are separated by a comma and a space. A collection inside itself is shown as
three dots in its brackets.
-/

set_option autoImplicit false

namespace FileClerk.Value

open FileClerk.Text FileClerk.Number

/-! ## Knots -/

/-- The cell of a knot with the cells for its strands, down to those that a path has passed
already. A path passes every cell at most once, so as many steps as there are cells suffice. -/
def unrolledCell (cells : List Value) : Nat → List Nat → Bracket → Nat → Value
  | 0, _, bracket, index => .strand bracket index
  | fuel + 1, path, bracket, index =>
    match path.contains index, cells[index]? with
    | false, some cell => cell.mapLinks (unrolledCell cells fuel (index :: path)) .knot
    | _, _ => .strand bracket index

/-- The value `value` with its knots unrolled. The strands that are left stand for collections
around them. -/
def unrolled (value : Value) : Value :=
  value.mapLinks .strand fun cells index =>
    unrolledCell cells (cells.length + 1) [] .square index

/-! ## Texts of scalars -/

/-- An offset from universal time as a span of days and seconds. -/
def shownSpan (offset : Int) : String :=
  let days := offset / 86400
  let seconds := offset % 86400
  let parts := (if days == 0 then [] else [s!"days={days}"])
    ++ (if seconds == 0 then [] else [s!"seconds={seconds}"])
  "datetime.timedelta(" ++ (if parts.isEmpty then "0" else ", ".intercalate parts) ++ ")"

/-- An offset from universal time as it is shown inside a moment. -/
def shownOffset (offset : Int) : String :=
  if offset == 0 then "datetime.timezone.utc" else "datetime.timezone(" ++ shownSpan offset ++ ")"

/-- A moment as it is shown inside a message. -/
def shownMoment (m : Moment) : String :=
  let fields := [m.date.year, m.date.month, m.date.day, m.hour, m.minute]
    ++ (if m.micros == 0 && m.secs == 0 then [] else [m.secs])
    ++ (if m.micros == 0 then [] else [m.micros])
  "datetime.datetime(" ++ ", ".intercalate (fields.map toString)
    ++ (m.offset.map fun offset => ", tzinfo=" ++ shownOffset offset).getD "" ++ ")"

/-- Three dots in brackets. -/
def shownAgain : Bracket → String
  | .square => "[...]"
  | .round => "(...)"
  | .curly => "\x7b...\x7d"

/-! ## Texts of values -/

mutual

/-- A value without knots as it is shown inside a message. -/
def shownTree : Value → String
  | null => "None"
  | bool b => if b then "True" else "False"
  | int n => toString n
  | float x => x.text
  | text s => quoted s
  | bytes b => quotedBytes b
  | date d => s!"datetime.date({d.year}, {d.month}, {d.day})"
  | moment m => shownMoment m
  | list items => "[" ++ ", ".intercalate (shownItems items) ++ "]"
  | tuple [item] => "(" ++ shownTree item ++ ",)"
  | tuple items => "(" ++ ", ".intercalate (shownItems items) ++ ")"
  | set [] => "set()"
  | set items => "\x7b" ++ ", ".intercalate (shownItems items) ++ "\x7d"
  | map entries => "\x7b" ++ ", ".intercalate (shownEntries entries) ++ "\x7d"
  | strand bracket _ => shownAgain bracket
  | knot _ _ => "..."

/-- The items of a collection, each as it is shown. -/
def shownItems : List Value → List String
  | [] => []
  | item :: rest => shownTree item :: shownItems rest

/-- The entries of a mapping, each as key and value with a colon between them. -/
def shownEntries : List (Value × Value) → List String
  | [] => []
  | (key, value) :: rest => (shownTree key ++ ": " ++ shownTree value) :: shownEntries rest

end

/-- The value `value` as it is shown inside a message. -/
def shown (value : Value) : String := value.unrolled.shownTree

/-- The value as a text of its own: a text is itself, a moment has a space between date and time,
and any other value is as it is shown. -/
def plain : Value → String
  | text s => s
  | date d => d.text
  | moment m => m.textWith " "
  | value => shown value

/-! ## Limits -/

mutual

/-- An integer in a value without knots has too many digits for a text. -/
def hasLongInteger : Value → Bool
  | int n => isTooLong n
  | list items => itemsHaveLong items
  | tuple items => itemsHaveLong items
  | set items => itemsHaveLong items
  | map entries => entriesHaveLong entries
  | _ => false

/-- An integer in one of the items has too many digits for a text. -/
def itemsHaveLong : List Value → Bool
  | [] => false
  | item :: rest => hasLongInteger item || itemsHaveLong rest

/-- An integer in a key or a value of the entries has too many digits for a text. -/
def entriesHaveLong : List (Value × Value) → Bool
  | [] => false
  | (key, value) :: rest => hasLongInteger key || hasLongInteger value || entriesHaveLong rest

end

/-- The value `value` has a text: no integer in it has too many digits. -/
def isShowable (value : Value) : Bool := !value.unrolled.hasLongInteger

end FileClerk.Value
