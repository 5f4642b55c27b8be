import FileClerk.Moment

/-!
# Kinds of nodes

A plain scalar without a tag is of the kind that its text has the form of: a truth value, an
integer, a binary number, nothing, a point in time, one of two marks, or else a text. A line feed
behind such a form does not count. A tag names a kind by its address.
-/

set_option autoImplicit false

namespace FileClerk.Yaml

open FileClerk.Number FileClerk.Text

/-- The kind of a node. -/
inductive Kind where
  | null
  | bool
  | int
  | float
  | time
  | merge
  | mark
  | text
  | binary
  | sequence
  | mapping
  | set
  | ordered
  | pairs
  | unknown
  deriving DecidableEq, Repr

/-- What the addresses of the known tags start with. -/
def tagStart : String := "tag:yaml.org,2002:"

/-- The names of kinds in addresses of tags. -/
def Kind.names : List (String × Kind) :=
  [("null", .null), ("bool", .bool), ("int", .int), ("float", .float), ("timestamp", .time),
    ("merge", .merge), ("value", .mark), ("str", .text), ("binary", .binary), ("seq", .sequence),
    ("map", .mapping), ("set", .set), ("omap", .ordered), ("pairs", .pairs)]

/-- The kind that the address of a tag names. -/
def Kind.ofAddress (address : String) : Kind :=
  ((Kind.names.map fun (name, kind) => (tagStart ++ name, kind)).lookup address).getD .unknown

/-- The kind is one of scalars with values. -/
def Kind.isScalar (kind : Kind) : Bool :=
  [Kind.null, .bool, .int, .float, .time, .text, .binary].contains kind

/-! ## Forms of texts -/

/-- The texts of truth values. -/
def boolTexts : List (String × Bool) :=
  [("yes", true), ("Yes", true), ("YES", true), ("no", false), ("No", false), ("NO", false),
    ("true", true), ("True", true), ("TRUE", true), ("false", false), ("False", false),
    ("FALSE", false), ("on", true), ("On", true), ("ON", true), ("off", false), ("Off", false),
    ("OFF", false)]

/-- The texts of nothing. -/
def nullTexts : List String := ["", "~", "null", "Null", "NULL"]

/-- The text without a sign in front. -/
def unsigned : List Char → List Char
  | '+' :: rest => rest
  | '-' :: rest => rest
  | s => s

/-- Digits with underscores, of which the first is a digit. -/
def isDigitRun : List Char → Bool
  | [] => false
  | c :: rest => c.isDigit && rest.all fun d => d.isDigit || d == '_'

/-- A number below sixty, as a part of a number in base sixty. -/
def isSixtieth : List Char → Bool
  | [c] => c.isDigit
  | [c, d] => '0' ≤ c && c ≤ '5' && d.isDigit
  | _ => false

/-- A number in base sixty, with at least two parts. -/
def isSexagesimal (s : List Char) : Bool :=
  match splitAtChar ':' s with
  | first :: second :: rest => isDigitRun first && (second :: rest).all isSixtieth
  | _ => false

/-- The form of an integer in base 2, 8, 10, 16 or 60. -/
def isInteger (s : List Char) : Bool :=
  match unsigned s with
  | '0' :: 'b' :: rest => !rest.isEmpty && rest.all fun c => c == '0' || c == '1' || c == '_'
  | '0' :: 'x' :: rest =>
    !rest.isEmpty && rest.all fun c =>
      c.isDigit || ('a' ≤ c && c ≤ 'f') || ('A' ≤ c && c ≤ 'F') || c == '_'
  | '0' :: rest => rest.all fun c => ('0' ≤ c && c ≤ '7') || c == '_'
  | rest => isDigitRun rest || isSexagesimal rest

/-- An exponent with its sign, or nothing. -/
def isExponent : List Char → Bool
  | [] => true
  | e :: sign :: digits =>
    (e == 'e' || e == 'E') && (sign == '+' || sign == '-') && !digits.isEmpty
      && digits.all Char.isDigit
  | _ => false

/-- A fraction of digits and underscores with an exponent. -/
def isFraction (s : List Char) : Bool := isExponent (s.dropWhile fun c => c.isDigit || c == '_')

/-- The form of a binary number: with a point, in base sixty, infinite, or no number. -/
def isFloat (s : List Char) : Bool :=
  match s with
  | '.' :: c :: rest =>
    (c.isDigit && isFraction rest)
      || [".nan", ".NaN", ".NAN", ".inf", ".Inf", ".INF"].contains (String.ofList s)
  | _ =>
    let body := unsigned s
    let whole := body.takeWhile (· != '.')
    match body.drop whole.length with
    | '.' :: rest =>
      (isDigitRun whole && isFraction rest)
        || (isSexagesimal whole && rest.all fun c => c.isDigit || c == '_')
        || (whole.isEmpty && ["inf", "Inf", "INF"].contains (String.ofList rest))
    | _ => false

/-! ## Points in time -/

/-- A point in time as its text gives it. -/
structure TimeFields where
  date : Date
  clock : Option (Nat × Nat × Nat)
  micros : Nat
  offset : Option Int
  deriving DecidableEq, Repr

/-- The rest of a text behind what separates a date from a time: a letter or white space. -/
def takeSeparator? : List Char → Option (List Char)
  | [] => none
  | c :: rest =>
    if c == 'T' || c == 't' then some rest
    else if c == ' ' || c == '\t' then some (rest.dropWhile fun c => c == ' ' || c == '\t')
    else none

/-- The offset that the end of a text gives, if it gives one. -/
def offset? (s : List Char) : Option (Option Int) :=
  match s.dropWhile fun c => c == ' ' || c == '\t' with
  | [] => if s.isEmpty then some none else none
  | ['Z'] => some (some 0)
  | sign :: rest => do
    if sign != '+' && sign != '-' then none
    else
      let (hours, rest) ← takeNumber? 1 2 rest
      let minutes ← match rest with
        | [] => some 0
        | c :: rest =>
          match takeNumber? 2 2 rest with
          | some (n, []) => if c == ':' then some n else none
          | _ => none
      let size : Int := hours * 3600 + minutes * 60
      some (some (if sign == '-' then -size else size))

/-- The point in time that a text gives. -/
def time? (s : List Char) : Option TimeFields := do
  let (year, rest) ← takeNumber? 4 4 s
  let rest ← afterChar? '-' rest
  let (month, rest) ← takeNumber? 1 2 rest
  let rest ← afterChar? '-' rest
  let (day, rest) ← takeNumber? 1 2 rest
  if rest.isEmpty then some ⟨⟨year, month, day⟩, none, 0, none⟩
  else
    let rest ← takeSeparator? rest
    let (hour, rest) ← takeNumber? 1 2 rest
    let rest ← afterChar? ':' rest
    let (minute, rest) ← takeNumber? 2 2 rest
    let rest ← afterChar? ':' rest
    let (second, rest) ← takeNumber? 2 2 rest
    let (micros, rest) := Moment.takeFraction rest
    let offset ← offset? rest
    some ⟨⟨year, month, day⟩, some (hour, minute, second), micros, offset⟩

/-- The form of a point in time. A date without a time of day has two digits for month and day. -/
def isTime (s : List Char) : Bool := (time? s).any fun t => t.clock.isSome || s.length == 10

/-! ## Kinds of plain scalars -/

/-- The text without a line feed at its end. -/
def withoutLineFeed (s : List Char) : List Char := if s.getLast? == some '\n' then s.dropLast else s

/-- The texts without a kind: they are marks of YAML itself. -/
def bareMarks : List String := ["!", "&", "*"]

/-- The kind of a plain scalar. -/
def Kind.ofPlain (text : String) : Kind :=
  let s := withoutLineFeed text.toList
  let form := String.ofList s
  if text == "\n" then .text
  else if (boolTexts.lookup form).isSome then .bool
  else if isFloat s then .float
  else if isInteger s then .int
  else if form == "<<" then .merge
  else if nullTexts.contains form then .null
  else if isTime s then .time
  else if form == "=" then .mark
  else if bareMarks.contains form then .unknown
  else .text

end FileClerk.Yaml
