import FileClerk.Log.Row
import FileClerk.Record
import FileClerk.Scan.Fault
import FileClerk.Scan.Pattern
import FileClerk.Settings.Scanner

/-!
# Scans

`scan` turns a directory into a collection of file records, ordered by the parts of their paths. It
leaves out hidden entries and entries with an ignored name, everything that is no file behind its
links, and, with a warning, entries that the system does not let it read.

What a scan finds outside of the program is a `World`. The only limit of the machine in it is the
number of directories inside one another that a deep listing can go down.
-/

set_option autoImplicit false

namespace FileClerk.Scan

open FileClerk.Text FileClerk.Number

/-- The name of the logger of scans. -/
def scanLogger : String := "file_commands.collection.scanner"

/-- What a scan finds outside of the program: home directories, the tree of directories, how many
levels a deep listing can go down, and the milliseconds that a scan takes. -/
structure World where
  homes : Homes
  tree : Tree
  levels : Nat
  elapsed : Binary64

/-! ## Entries -/

/-- What a scan finds at an entry. -/
inductive Finding where
  | leftOut
  | outOfReach (fault : AccessFault)
  | file (size : Nat) (modified : Moment)
  deriving DecidableEq, Repr

/-- The text `name` starts with a dot. -/
def isHidden (name : String) : Bool := name.toList.head? == some '.'

/-- The function `_should_ignore` for `name` and the patterns: one of them describes the name.
Patterns are tried in order, and one that is no text is a failure once it is reached. -/
def isIgnored (name : String) : List Value → Except ScanFault Bool
  | [] => .ok false
  | .text pattern :: rest =>
    if Pattern.matchesName pattern name then .ok true else isIgnored name rest
  | .bytes _ :: _ => .error .bytesPattern
  | pattern :: _ => .error (.patternKind pattern.shortKindName)

/-- What stands at `path`, the path of an entry that is neither hidden nor ignored: the handler
around `is_file` and `from_path`. A file whose time has no moment is a failure, unless the system
says that the time is too large. -/
def reachable (tree : Tree) (path : Path) : Except ScanFault Finding :=
  match tree.inspect path with
  | .ok (.file info) =>
    match info.modified.moment with
    | .ok modified => .ok (.file info.size modified)
    | .error .calendar => .ok (.outOfReach .timeTooLarge)
    | .error fault => .error (.fileTime fault)
  | .ok _ => .ok .leftOut
  | .error fault => .ok (if fault.meansAbsent then .leftOut else .outOfReach fault)

/-- What a scan finds at the entry that `names` lead to from `directory`: the body of the loop of
`scan`. -/
def examine (settings : ScannerSettings) (tree : Tree) (directory : Path) (names : List String) :
    Except ScanFault Finding :=
  let name := names.getLast?.getD ""
  if !settings.includeHidden && isHidden name then .ok .leftOut
  else do
    if ← isIgnored name settings.ignorePatterns then return .leftOut
    else if !settings.includeHidden && names.dropLast.any isHidden then return .leftOut
    else reachable tree (directory.extend names)

/-- The findings at entries up to the first failure, with that failure: the loop of `scan`. -/
def findings (settings : ScannerSettings) (tree : Tree) (directory : Path) :
    List (List String) → List (List String × Finding) × Option ScanFault
  | [] => ([], none)
  | names :: rest =>
    match examine settings tree directory names with
    | .error fault => ([], some fault)
    | .ok finding =>
      let (found, fault) := findings settings tree directory rest
      ((names, finding) :: found, fault)

/-! ## Records -/

/-- The identifier of the record with a number. -/
def recordId (number : Nat) : String := "id-" ++ toString number

/-- The record of a file with the suffix of `name` as its extension. -/
def recordOf (id name shownPath : String) (size : Nat) (modified : Moment) : Record :=
  ⟨id, name, normalExtension (Path.suffixOf name), size, modified, shownPath⟩

/-- The path by which the file that `names` lead to is shown. -/
def shownBelow (directory : Path) (names : List String) : String :=
  directory.name ++ "/" ++ (Path.mk "" names).text

/-- The records of the files in `found`, numbered from one on. -/
def recordsOf (directory : Path) (found : List (List String × Finding)) : List Record :=
  let files := found.filterMap fun (names, finding) =>
    match finding with
    | .file size modified => some (names, size, modified)
    | _ => none
  files.zipIdx.map fun ((names, size, modified), index) =>
    recordOf (recordId (index + 1)) (names.getLast?.getD "") (shownBelow directory names) size
      modified

/-- What is known about a directory when it is described as a file: a directory fills one block. -/
def directoryInfo : FileInfo := ⟨4096, ⟨0, 0⟩, none⟩

/-- The function `from_path`: the record of a single file. It is shown by its path below `root`, or
by its whole path. -/
def describe (tree : Tree) (path : Path) (id : String) (root : Option Path) :
    Except ScanFault Record := do
  let info ← match tree.inspect path with
    | .ok (.file info) => pure info
    | .ok _ => pure directoryInfo
    | .error fault => .error (.access fault path)
  let shown ← match root with
    | none => pure path.text
    | some root =>
      match Path.relativeTo? root path with
      | none => .error (.outside path root)
      | some names => pure (shownBelow root names)
  let id := if id.isEmpty then recordId 1 else id
  let modified ← info.modified.moment.mapError .fileTime
  return recordOf id path.name shown info.size modified

/-! ## Log rows -/

/-- The rows about the entries in `found` that are out of reach. -/
def warnings (directory : Path) (found : List (List String × Finding)) : List Log.Row :=
  found.filterMap fun (names, finding) =>
    match finding with
    | .outOfReach fault =>
      let path := directory.extend names
      some ⟨.warning, scanLogger,
        "Skipping unreadable entry " ++ path.name ++ ": " ++ fault.message path, []⟩
    | _ => none

/-- The row that `scan` writes about a finished collection. -/
def loadedRow (directory : Path) (count : Nat) : Log.Row :=
  ⟨.info, scanLogger, "Loaded " ++ toString count ++ " files from " ++ directory.name,
    [("directory", .text directory.text), ("file_count", .int count)]⟩

/-! ## Reports -/

/-- The report that a path leads to nothing. -/
def notFound (directory : Path) : Report :=
  .scan ("Directory not found: " ++ directory.text) directory.text .directoryNotFound none

/-- The report that a path leads to something else than a directory. -/
def notADirectory (directory : Path) : Report :=
  .scan ("Not a directory: " ++ directory.text) directory.text .notADirectory none

/-- The report that `directory` cannot be listed, because of the listing of the directory at `path`.
-/
def notListed (directory : Path) (fault : AccessFault) (path : Path) : Report :=
  .scan ("Cannot list directory: " ++ directory.text) directory.text .scanFailed
    (some ⟨fault.kindName, fault.message path⟩)

/-- What a refused listing of `directory` makes of a scan. -/
def refused (directory : Path) : Tree.Refusal → ScanFault
  | .unlisted fault path => .noDirectory (notListed directory fault path)
  | .tooDeep => .tooDeep

/-! ## Scans -/

/-- What a scan gives, with the rows that it writes. -/
structure Scanned where
  result : Except ScanFault (List Record)
  log : List Log.Row

/-- A scan that fails before it writes anything. -/
def Scanned.failed (fault : ScanFault) : Scanned := ⟨.error fault, []⟩

/-- The order of paths by their parts. -/
def inPathOrder (a b : List String) : Bool := !decide (b < a)

/-- The scan of `directory`, which stands at `place`: the part of `scan` that its `Timer` measures.
-/
def scanPlace (world : World) (settings : ScannerSettings) (directory : Path)
    (place : List String) : Scanned :=
  let completed := Log.completed scanLogger ("scan " ++ directory.text) world.elapsed
  match world.tree.entries world.levels directory place settings.intoSubdirectories with
  | .error refusal => ⟨.error (refused directory refusal), [completed]⟩
  | .ok entries =>
    match findings settings world.tree directory (entries.mergeSort inPathOrder) with
    | (found, some fault) => ⟨.error fault, warnings directory found ++ [completed]⟩
    | (found, none) =>
      let records := recordsOf directory found
      ⟨.ok records, warnings directory found ++ [completed, loadedRow directory records.length]⟩

/-- The function `scan`: the records of the files in `directory`. -/
def scan (world : World) (settings : ScannerSettings) (directory : Path) : Scanned :=
  match directory.expandHome world.homes with
  | none => .failed .noHome
  | some directory =>
    match world.tree.inspect directory, world.tree.locate directory with
    | .ok .directory, .ok place => scanPlace world settings directory place
    | .ok _, _ => .failed (.noDirectory (notADirectory directory))
    | .error fault, _ =>
      if fault.meansAbsent then .failed (.noDirectory (notFound directory))
      else .failed (.access fault directory)

end FileClerk.Scan
