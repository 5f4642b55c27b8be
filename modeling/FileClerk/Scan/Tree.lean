import FileClerk.Moment
import FileClerk.Path
import FileClerk.Text.Quoted

/-!
# Directory trees

A `Tree` holds files, directories and symbolic links under their places, which are lists of names
from the root on. A path is followed name by name (`Tree.walk`): two dots lead up, and a link leads
on to its target, up to forty links in all. A step onto a place in `Tree.unreadable` is denied, and
so is everything below it. The names in a directory of `Tree.unlistable` are not given, but what
stands under them is in reach.

`Tree.entries` is what a directory lists. A flat listing has the names in the directory. A deep one
goes on into the directories below, not through links, and passes over those that deny to be listed;
a directory that cannot be listed for another reason refuses the whole listing.
-/

set_option autoImplicit false

namespace FileClerk.Scan

open FileClerk.Text

/-- What is known about a file. Its text need not be known. -/
structure FileInfo where
  size : Nat
  modified : FileTime
  text : Option String
  deriving DecidableEq, Repr

/-- The target of a symbolic link: whether it starts at the root, and its names. -/
structure LinkTarget where
  fromRoot : Bool
  names : List String
  deriving DecidableEq, Repr

/-- The target that a text denotes. A slash at the end asks for a directory, as a dot does. -/
def LinkTarget.ofText (s : String) : LinkTarget :=
  let chars := s.toList
  let names := (Path.splitParts chars).filter (· != "")
  ⟨chars.head? == some '/', if chars.getLast? == some '/' then names ++ ["."] else names⟩

/-- What stands at a place of a tree. -/
inductive Node where
  | file (info : FileInfo)
  | directory
  | link (target : LinkTarget)
  deriving DecidableEq, Repr

/-- A failure of the system: why a path gives no access, or that a file time is too large. -/
inductive AccessFault where
  | missing
  | notADirectory
  | tooManyLinks
  | nameTooLong
  | denied
  | isADirectory
  | timeTooLarge
  deriving DecidableEq, Repr

namespace AccessFault

/-- The system's number for a failure. -/
def number : AccessFault → Nat
  | missing => 2
  | denied => 13
  | notADirectory => 20
  | isADirectory => 21
  | nameTooLong => 36
  | tooManyLinks => 40
  | timeTooLarge => 75

/-- The system's words for a failure. -/
def reason : AccessFault → String
  | missing => "No such file or directory"
  | denied => "Permission denied"
  | notADirectory => "Not a directory"
  | isADirectory => "Is a directory"
  | nameTooLong => "File name too long"
  | tooManyLinks => "Too many levels of symbolic links"
  | timeTooLarge => "Value too large for defined data type"

/-- The kind of a failure. -/
def kindName : AccessFault → String
  | missing => "FileNotFoundError"
  | denied => "PermissionError"
  | notADirectory => "NotADirectoryError"
  | isADirectory => "IsADirectoryError"
  | nameTooLong => "OSError"
  | tooManyLinks => "OSError"
  | timeTooLarge => "OSError"

/-- The failure means that nothing is there, as opposed to something out of reach. -/
def meansAbsent : AccessFault → Bool
  | missing => true
  | notADirectory => true
  | tooManyLinks => true
  | nameTooLong => false
  | denied => false
  | isADirectory => false
  | timeTooLarge => false

/-- The text of a failure, which names the path unless access is denied or a time is too large. -/
def message (fault : AccessFault) (path : Path) : String :=
  "[Errno " ++ toString fault.number ++ "] " ++ fault.reason
    ++ (if fault == denied || fault == timeTooLarge then "" else ": " ++ quoted path.text)

end AccessFault

/-- A tree of directories. Relative paths start at the place `here`. A place in `unreadable` gives
no access to itself or to what is below it, and a directory in `unlistable` does not give its names.
No place has two nodes. -/
structure Tree where
  here : List String
  nodes : List (List String × Node)
  unreadable : List (List String)
  unlistable : List (List String)
  distinct : (nodes.map Prod.fst).Nodup

namespace Tree

/-- The most links that a path may lead through. -/
def maxLinks : Nat := 40

/-- The most bytes that a name may have. -/
def maxNameBytes : Nat := 255

/-- The most bytes that a path may have. -/
def maxPathBytes : Nat := 4095

/-- What stands at `place`; the root is a directory. -/
def node? (tree : Tree) (place : List String) : Option Node :=
  if place.isEmpty then some .directory else tree.nodes.lookup place

/-- The place that names lead to from the directory at `place`; `follow` goes on from a directory
along the names of a link and those behind it. A step onto a place in `tree.unreadable` is denied
before anything is looked up. -/
def steps (tree : Tree) (follow : List String → List String → Except AccessFault (List String))
    (place : List String) : List String → Except AccessFault (List String)
  | [] => .ok place
  | name :: rest =>
    if tree.node? place != some .directory then .error .notADirectory
    else if name == "." then steps tree follow place rest
    else if name == ".." then steps tree follow place.dropLast rest
    else if maxNameBytes < name.utf8ByteSize then .error .nameTooLong
    else if tree.unreadable.contains (place ++ [name]) then .error .denied
    else
      match tree.node? (place ++ [name]) with
      | none => .error .missing
      | some (.link target) => follow (if target.fromRoot then [] else place) (target.names ++ rest)
      | some _ => steps tree follow (place ++ [name]) rest

/-- The place that names lead to from a directory, through at most so many links. -/
def walk (tree : Tree) : Nat → List String → List String → Except AccessFault (List String)
  | 0 => tree.steps fun _ _ => .error .tooManyLinks
  | links + 1 => tree.steps (walk tree links)

/-- The place that `path` leads to, from `tree.here` if it is relative. -/
def locate (tree : Tree) (path : Path) : Except AccessFault (List String) :=
  if maxPathBytes < path.text.utf8ByteSize then .error .nameTooLong
  else tree.walk maxLinks (if path.root.isEmpty then tree.here else []) path.parts

/-- What `path` leads to, behind its links. -/
def inspect (tree : Tree) (path : Path) : Except AccessFault Node := do
  let place ← tree.locate path
  match tree.node? place with
  | some node => return node
  | none => .error .missing

/-- The text of the file that `path` leads to. A file whose text is not known is filled with one
letter. -/
def readText (tree : Tree) (path : Path) : Except AccessFault String := do
  match ← tree.inspect path with
  | .file info => return info.text.getD (String.ofList (List.replicate info.size 'x'))
  | _ => throw .isADirectory

/-! ## Listings -/

/-- Why the names in the directory at `path` are not given. -/
def listFault? (tree : Tree) (path : Path) : Option AccessFault :=
  match tree.locate path with
  | .error fault => some fault
  | .ok place => if tree.unlistable.contains place then some .denied else none

/-- The names that lead from `directory` to a `place` below it. -/
def below? (directory place : List String) : Option (List String) :=
  if directory.isPrefixOf place && directory.length < place.length then
    some (place.drop directory.length)
  else none

/-- A deep listing of `directory`, which stands at `place`, comes to the names: every place strictly
between is a directory, and all of these directories and `directory` itself give their names. -/
def reaches (tree : Tree) (directory : Path) (place : List String) : List String → Bool
  | [] => false
  | [_] => (tree.listFault? directory).isNone
  | name :: rest =>
    (tree.listFault? directory).isNone && tree.node? (place ++ [name]) == some .directory
      && reaches tree (directory.child name) (place ++ [name]) rest

/-- Why a listing is refused: a directory in it cannot be listed, or lies too deep. -/
inductive Refusal where
  | unlisted (fault : AccessFault) (path : Path)
  | tooDeep
  deriving BEq, Repr

/-- Why a deep listing of `directory` is refused by the directory that `names` lead to. A directory
that denies to be listed does not refuse the listing. -/
def refusal? (tree : Tree) (levels : Nat) (directory : Path) (names : List String) :
    Option Refusal :=
  if levels < names.length then some .tooDeep
  else
    match tree.listFault? (directory.extend names) with
    | none => none
    | some .denied => none
    | some fault => some (.unlisted fault (directory.extend names))

/-- The names that lead from `directory` to the places below it, in the order of `tree.nodes`. -/
def namesBelow (tree : Tree) (directory : List String) : List (List String) :=
  tree.nodes.filterMap fun (place, _) => below? directory place

/-- The entries that a deep listing of `directory`, which stands at `place`, comes to. -/
def deepEntries (tree : Tree) (directory : Path) (place : List String) : List (List String) :=
  (tree.namesBelow place).filter (tree.reaches directory place)

/-- The directories that a deep listing goes into: `directory` itself and the real ones below it. -/
def visited (tree : Tree) (directory : Path) (place : List String) : List (List String) :=
  [] :: (tree.deepEntries directory place).filter fun names =>
    tree.node? (place ++ names) == some .directory

/-- The entries of `directory`, which stands at `place`, as names from the directory on; on request
with those of the real directories below it, of which `levels` may lie inside one another. The first
refusal counts. -/
def entries (tree : Tree) (levels : Nat) (directory : Path) (place : List String) (deep : Bool) :
    Except Refusal (List (List String)) :=
  if deep then
    match (tree.visited directory place).findSome? (tree.refusal? levels directory) with
    | some refusal => .error refusal
    | none => .ok (tree.deepEntries directory place)
  else
    match tree.listFault? directory with
    | some fault => .error (.unlisted fault directory)
    | none => .ok ((tree.deepEntries directory place).filter fun names => names.length == 1)

end Tree

end FileClerk.Scan
