import FileClerk.Scan.Tree
import FileClerk.Value.Basic

/-!
# Listings of trees

A listing describes a tree as a list of entries, each a mapping: the path of a file with its size or
text and its time of modification in seconds since 1970, of a directory, or of a symbolic link with
its target. Paths start at the working directory, and directories on the way are made as needed. An
entry can also say that its place gives no access, or that its directory cannot be listed.

Every step puts a node at a place, which keeps the places of a tree distinct (`Tree.nodup_setNode`).
-/

set_option autoImplicit false

namespace FileClerk.Scan

open FileClerk.Number

/-! ## Growing a tree -/

namespace Tree

/-- The list `nodes` with the node at `place` set. -/
def setNode (place : List String) (node : Node) :
    List (List String × Node) → List (List String × Node)
  | [] => [(place, node)]
  | (p, old) :: rest =>
    if p == place then (p, node) :: rest else (p, old) :: setNode place node rest

/-- Setting a node adds its place if it is new. -/
theorem map_fst_setNode (place : List String) (node : Node) (nodes : List (List String × Node)) :
    (setNode place node nodes).map Prod.fst =
      if place ∈ nodes.map Prod.fst then nodes.map Prod.fst
      else nodes.map Prod.fst ++ [place] := by
  induction nodes with
  | nil => rfl
  | cons first rest ih =>
      rw [setNode]
      by_cases hsame : first.1 = place
      · rw [if_pos (by simpa using hsame), if_pos (by simp [hsame])]
        rw [List.map_cons, List.map_cons]
      · rw [if_neg (by simpa using hsame), List.map_cons, ih, List.map_cons]
        by_cases hmem : place ∈ rest.map Prod.fst
        · rw [if_pos hmem, if_pos (List.mem_cons_of_mem _ hmem)]
        · rw [if_neg hmem, if_neg]
          · rfl
          · rw [List.mem_cons, not_or]
            exact ⟨fun h => hsame h.symm, hmem⟩

/-- Setting a node gives no place a second one. -/
theorem nodup_setNode {nodes : List (List String × Node)} (h : (nodes.map Prod.fst).Nodup)
    (place : List String) (node : Node) : ((setNode place node nodes).map Prod.fst).Nodup := by
  rw [map_fst_setNode]
  split
  · exact h
  · rename_i hnew
    refine List.nodup_append.2 ⟨h, List.nodup_cons.2 ⟨List.not_mem_nil, List.nodup_nil⟩, ?_⟩
    intro p hp q hq hsame
    exact hnew (List.mem_singleton.1 hq ▸ hsame ▸ hp)

/-- The tree `tree` with the node at `place` set. -/
def put (tree : Tree) (place : List String) (node : Node) : Tree :=
  { tree with
    nodes := setNode place node tree.nodes
    distinct := nodup_setNode tree.distinct place node }

/-- The place that names lead to from the directory at `place`, with missing directories made on the
way. -/
def makeDirectories (tree : Tree) (place : List String) : List String → Tree × List String
  | [] => (tree, place)
  | name :: rest =>
    match tree.walk maxLinks place [name] with
    | .ok next => makeDirectories tree next rest
    | .error _ => makeDirectories (tree.put (place ++ [name]) .directory) (place ++ [name]) rest

/-- The tree without any entries in its working directory. -/
def empty (here : List String) : Tree :=
  ((Tree.mk here [] [] [] List.nodup_nil).makeDirectories [] here).1

/-- The tree `tree` with a file at `path`; a link at its end leads on to the file. The place of the
file's name comes with it. -/
def putFile (tree : Tree) (path : Path) (info : FileInfo) : Tree × List String :=
  let (tree, parent) := tree.makeDirectories tree.here path.parts.dropLast
  match tree.walk maxLinks parent [path.name] with
  | .ok place => (tree.put place (.file info), parent ++ [path.name])
  | .error _ => (tree.put (parent ++ [path.name]) (.file info), parent ++ [path.name])

/-- The tree `tree` with a link at `path`, and the place of the link. -/
def putLink (tree : Tree) (path : Path) (target : String) : Tree × List String :=
  let (tree, parent) := tree.makeDirectories tree.here path.parts.dropLast
  (tree.put (parent ++ [path.name]) (.link (.ofText target)), parent ++ [path.name])

end Tree

/-! ## Reading a listing -/

/-- The whole seconds and the nanoseconds of a number of seconds. The nanoseconds are those of the
fraction times a billion as a binary number, rounded down. -/
def fileTime : Value → FileTime
  | .int n => ⟨n, 0⟩
  | .float x =>
    match x.ratio? with
    | none => ⟨0, 0⟩
    | some (num, den) =>
      let whole := num.tdiv den
      let part := (Binary64.ofSigned (num - whole * den) den).mul (Binary64.ofInt 1000000000)
      match part.ratio? with
      | none => ⟨whole, 0⟩
      | some (a, b) =>
        let nanos := a.fdiv b
        if nanos < 0 then ⟨whole - 1, (nanos + 1000000000).toNat⟩ else ⟨whole, nanos.toNat⟩
  | _ => ⟨0, 0⟩

/-- The truth of a field of an entry; a missing field is false. -/
def flagged (name : String) (entry : Value) : Bool := (entry.field? name).any Value.holds

/-- The time under `mtime` in an entry. -/
def modifiedOf (entry : Value) : FileTime := fileTime ((entry.field? "mtime").getD (.int 0))

/-- What an entry says about its file. The size of a text is the number of its bytes. -/
def infoOf (entry : Value) : FileInfo :=
  match entry.field? "text", entry.field? "size" with
  | some (.text s), _ => ⟨s.utf8ByteSize, modifiedOf entry, some s⟩
  | _, some (.int n) => ⟨n.toNat, modifiedOf entry, none⟩
  | _, _ => ⟨0, modifiedOf entry, none⟩

/-- The tree `tree` with the node of `entry` at `path`, and the place of the node. -/
def putEntry (tree : Tree) (path : Path) (entry : Value) : Tree × List String :=
  if flagged "dir" entry then tree.makeDirectories tree.here path.parts
  else
    match entry.field? "link" with
    | some (.text target) => tree.putLink path target
    | _ => tree.putFile path (infoOf entry)

/-- The tree `tree` with one entry of a listing added. -/
def addEntry (tree : Tree) (entry : Value) : Tree :=
  match entry.field? "p" with
  | some (.text s) =>
    let (tree, place) := putEntry tree (.ofText s) entry
    { tree with
      unreadable := if flagged "unreadable" entry then place :: tree.unreadable else tree.unreadable
      unlistable := if flagged "unlistable" entry then place :: tree.unlistable
        else tree.unlistable }
  | _ => tree

/-- The tree that a listing describes, seen from a working directory. -/
def Tree.ofListing (here : List String) : Value → Tree
  | .list entries => entries.foldl addEntry (Tree.empty here)
  | _ => Tree.empty here

end FileClerk.Scan
