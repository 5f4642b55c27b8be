import FileClerk.Text.Basic

/-!
# Paths

A path is a root and a list of parts. Repeated slashes and single dots are dropped when a path is
read, and two dots are kept. Exactly two slashes at the start are a root of their own; any other
number of them is the ordinary root. Paths are ordered by their parts. A tilde at the start of a
relative path stands for one of the directories in `Homes`.
-/

set_option autoImplicit false

namespace FileClerk

/-- A path in a tree of directories. -/
structure Path where
  root : String
  parts : List String
  deriving DecidableEq, Repr

namespace Path

/-- The parts of a path between slashes. -/
def splitParts (s : List Char) : List String := (Text.splitAtChar '/' s).map String.ofList

/-- The path that a text denotes. -/
def ofText (s : String) : Path :=
  let slashes := (s.toList.takeWhile (· == '/')).length
  let root := if slashes == 0 then "" else if slashes == 2 then "//" else "/"
  ⟨root, (splitParts s.toList).filter fun part => part != "" && part != "."⟩

/-- The path as text; the empty path is a dot. -/
def text (p : Path) : String :=
  if p.root.isEmpty && p.parts.isEmpty then "." else p.root ++ "/".intercalate p.parts

/-- The last part, or nothing for a path without parts. -/
def name (p : Path) : String := p.parts.getLast?.getD ""

/-- The path that `names` lead to from the directory `p`. -/
def extend (p : Path) (names : List String) : Path := { p with parts := p.parts ++ names }

/-- The path of an entry of a directory. -/
def child (p : Path) (name : String) : Path := p.extend [name]

@[simp]
theorem extend_nil (p : Path) : p.extend [] = p := by
  rw [extend, List.append_nil]

theorem extend_cons (p : Path) (name : String) (names : List String) :
    p.extend (name :: names) = (p.child name).extend names := by
  rw [child, extend, extend, extend, List.append_assoc, List.singleton_append]

/-- The text of `name` from its last point on, if the point is neither its first nor its last
character. -/
def suffixOf (name : String) : String :=
  let chars := name.toList
  let tail := (chars.reverse.takeWhile (· != '.')).reverse
  if tail.isEmpty || chars.length ≤ tail.length + 1 then "" else String.ofList ('.' :: tail)

/-- The parts of `p` behind `directory`, if `p` lies in it. -/
def relativeTo? (directory p : Path) : Option (List String) :=
  if p.root == directory.root && directory.parts.isPrefixOf p.parts then
    some (p.parts.drop directory.parts.length)
  else none

end Path

/-! ## Home directories -/

/-- The home directories that a tilde stands for: the one of the user who runs the program, and
those of the users that the system knows. -/
structure Homes where
  own : Path
  ofUser? : String → Option Path

namespace Homes

/-- Homes on a system that knows no user by name. -/
def only (own : Path) : Homes := ⟨own, fun _ => none⟩

/-- The home that stands behind a tilde: `~` asks for `own`, and `~user` for that of the user. -/
def find? (homes : Homes) (user : String) : Option Path :=
  if user == "" then some homes.own else homes.ofUser? user

end Homes

namespace Path

/-- What stands behind the tilde of a relative path that starts with one. -/
def tilde? (p : Path) : Option String :=
  match p.root, p.parts with
  | "", first :: _ =>
    match first.toList with
    | '~' :: user => some (String.ofList user)
    | _ => none
  | _, _ => none

/-- The path with a leading `~` or `~user` replaced by a home directory. There is none if `homes`
does not know the user. -/
def expandHome (p : Path) (homes : Homes) : Option Path :=
  match p.tilde? with
  | none => some p
  | some user => (homes.find? user).map fun home => home.extend p.parts.tail

end Path

end FileClerk
