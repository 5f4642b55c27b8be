/-!
# Cutting a text into pieces

A text is cut from left to right into readings and the characters between them. A reading starts at
the first place where the reader succeeds, and the next one is looked for behind it. The readings
of a text and the text without its readings are views of the same pieces, so that what is found and
what is left always agree.
-/

set_option autoImplicit false

namespace FileClerk.Text

universe u

variable {α : Type u}

/-- A piece of a text: a character that belongs to no reading, or a reading. -/
inductive Piece (α : Type u) where
  | plain (c : Char)
  | found (a : α)

/-- A reader gets the character before a place and the text from there on. It gives a reading and
the number of characters that the reading takes up. -/
abbrev Reader (α : Type u) := Option Char → List Char → Option (α × Nat)

/-- The pieces of a text whose first `skip` characters belong to a reading already taken. -/
def piecesFrom (read : Reader α) (before : Option Char) : Nat → List Char → List (Piece α)
  | _, [] => []
  | skip + 1, c :: rest => piecesFrom read (some c) skip rest
  | 0, c :: rest =>
    match read before (c :: rest) with
    | some (a, n + 1) => .found a :: piecesFrom read (some c) n rest
    | _ => .plain c :: piecesFrom read (some c) 0 rest

/-- The pieces of `s` that `read` cuts it into. -/
def pieces (read : Reader α) (s : List Char) : List (Piece α) := piecesFrom read none 0 s

/-- The readings of `s` in order. -/
def readings (read : Reader α) (s : List Char) : List α :=
  (pieces read s).filterMap fun
    | .plain _ => none
    | .found a => some a

/-- The text `s` with a space in place of every reading. -/
def blankOut (read : Reader α) (s : List Char) : List Char :=
  (pieces read s).map fun
    | .plain c => c
    | .found _ => ' '

/-- The first reading of a text. -/
def firstReading? (read : Option Char → List Char → Option α) (before : Option Char) :
    List Char → Option α
  | [] => read before []
  | c :: rest =>
    match read before (c :: rest) with
    | some a => some a
    | none => firstReading? read (some c) rest

end FileClerk.Text
