/-!
# Name patterns

A pattern describes file names. A star stands for any run of characters, a question mark for any
one character, and a class in square brackets for one character of a set, which an exclamation mark
turns into its complement. A bracket without its partner is a letter. Patterns are compared with
whole names, and letter case counts.

A hyphen inside a class joins the characters at its sides to a range, unless it stands at an end of
the class or at an end of a range. A range whose ends are out of order is empty, and both of its
ends are left out.
-/

set_option autoImplicit false

namespace FileClerk.Scan

/-- What a stretch of a name is compared with. -/
inductive PatternItem where
  | anyRun
  | anyChar
  | letter (c : Char)
  | oneOf (negated : Bool) (ranges : List (Char × Char))
  deriving DecidableEq, Repr

/-- A pattern for names. -/
abbrev Pattern := List PatternItem

namespace Pattern

/-! ## Classes -/

/-- The text of a class, cut at the hyphens that join ranges; the first `skip` characters are not
such hyphens, and neither is the last character. -/
def cutRanges (skip : Nat) (acc : List Char) : List Char → List (List Char)
  | [] => [acc.reverse]
  | c :: rest =>
    if skip == 0 && c == '-' && !rest.isEmpty then acc.reverse :: cutRanges 2 [] rest
    else cutRanges (skip - 1) (c :: acc) rest

/-- The ends of the range between `left` and `right` are out of order. -/
def outOfOrder (left right : List Char) : Bool :=
  match left.getLast?, right.head? with
  | some low, some high => high < low
  | _, _ => false

/-- The stretches of a class without those ranges whose ends are out of order. -/
def dropEmptyRanges : List (List Char) → List (List Char)
  | [] => []
  | stretch :: rest =>
    match dropEmptyRanges rest with
    | [] => [stretch]
    | next :: more =>
      if outOfOrder stretch next then (stretch.dropLast ++ next.drop 1) :: more
      else stretch :: next :: more

/-- The range between `left` and `right`; without a left end the hyphen is a letter. -/
def between (left right : List Char) : Char × Char :=
  match left.getLast?, right.head? with
  | some low, some high => (low, high)
  | _, _ => ('-', '-')

/-- The ranges of a class: its characters one by one, and the ranges between its stretches. -/
def rangesOf (stretches : List (List Char)) : List (Char × Char) :=
  (stretches.flatten.map fun c => (c, c)) ++ List.zipWith between stretches (stretches.drop 1)

/-- The item of a class from the text between its brackets. -/
def classOf (body : List Char) : PatternItem :=
  let skip := if body.head? == some '!' then 2 else 1
  match dropEmptyRanges (cutRanges skip [] body) with
  | ('!' :: first) :: rest => .oneOf true (rangesOf (first :: rest))
  | stretches => .oneOf false (rangesOf stretches)

/-- The characters at the start of a class among which a closing bracket is a letter. -/
def classStart : List Char → List Char
  | '!' :: ']' :: _ => ['!', ']']
  | '!' :: _ => ['!']
  | ']' :: _ => [']']
  | _ => []

/-- The text of a class after its opening bracket, with the text behind its closing one. -/
def classBody? (s : List Char) : Option (List Char × List Char) :=
  let start := classStart s
  let rest := s.drop start.length
  match rest.dropWhile (· != ']') with
  | [] => none
  | _ :: behind => some (start ++ rest.takeWhile (· != ']'), behind)

/-- The text behind a class is shorter than the text from the class on. -/
theorem classBody?_length {s body behind : List Char} (h : classBody? s = some (body, behind)) :
    behind.length < s.length := by
  unfold classBody? at h
  simp only at h
  split at h
  · cases h
  · rename_i c rest heq
    cases h
    have hle := (List.dropWhile_sublist (p := (· != ']'))
      (l := s.drop (classStart s).length)).length_le
    rw [heq] at hle
    simp only [List.length_cons, List.length_drop] at hle
    omega

/-! ## Patterns -/

/-- The pattern that a text denotes. -/
def ofChars : List Char → Pattern
  | [] => []
  | c :: rest =>
    if c == '*' then .anyRun :: ofChars rest
    else if c == '?' then .anyChar :: ofChars rest
    else if c == '[' then
      match _h : classBody? rest with
      | some (body, behind) => classOf body :: ofChars behind
      | none => .letter c :: ofChars rest
    else .letter c :: ofChars rest
termination_by s => s.length
decreasing_by
  all_goals simp only [List.length_cons]
  all_goals first
    | (have hlt := classBody?_length _h; omega)
    | omega

/-- The item is met by the single character `c`. -/
def itemAdmits (c : Char) : PatternItem → Bool
  | .anyRun => true
  | .anyChar => true
  | .letter d => c == d
  | .oneOf negated ranges => (ranges.any fun (low, high) => low ≤ c && c ≤ high) != negated

/-- The pattern describes the whole of a name. -/
def admits : Pattern → List Char → Bool
  | [], name => name.isEmpty
  | .anyRun :: rest, name => (name :: tailsOf name).any (admits rest)
  | item :: rest, name =>
    match name with
    | [] => false
    | c :: name => itemAdmits c item && admits rest name
where
  /-- The proper ends of a name, the longest first. -/
  tailsOf : List Char → List (List Char)
    | [] => []
    | _ :: rest => rest :: tailsOf rest

/-- The pattern that `pattern` denotes describes the whole of `name`, as in `fnmatch`. -/
def matchesName (pattern name : String) : Bool := admits (ofChars pattern.toList) name.toList

end Pattern

end FileClerk.Scan
