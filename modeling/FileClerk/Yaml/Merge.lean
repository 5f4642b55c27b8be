import FileClerk.Yaml.Node

/-!
# Merged mappings

A mapping takes over the entries of other mappings where a key is the mark of a merge. The entries
taken over come first, so that its own win over them; of several mappings taken over together, the
first comes last. In the graph a mapping is replaced by the one without such marks, and a mapping
taken over is so too. The mark of a value is a text as a key.

Every step of a merge removes a mark, and none is ever added, so the number of entries bounds the
steps.
-/

set_option autoImplicit false

namespace FileClerk.Yaml

/-- A change of the graph. -/
abbrev GraphChange := StateT Graph (Except Fault)

/-- The node at a place. -/
def nodeAt (place : Nat) : GraphChange Node := do
  match (← get)[place]? with
  | some node => return node
  | none => throw .malformed

/-- The entries of the mapping at a place; no other node is taken for one. -/
def entriesAt (place : Nat) : GraphChange (List (Nat × Nat)) := do
  match (← nodeAt place).content with
  | .mapping entries => return entries
  | _ => throw .malformed

/-- Replaces the entries of a mapping. -/
def setEntries (place : Nat) (entries : List (Nat × Nat)) : GraphChange Unit :=
  modify fun graph => graph.modify place fun node => { node with content := .mapping entries }

/-- The place is that of a node of a kind. -/
def isOfKind (graph : Graph) (kind : Kind) (place : Nat) : Bool :=
  (graph[place]?).any fun node => node.kind == kind

/-- Keys that are marks of values become texts. -/
def nameMarks (entries : List (Nat × Nat)) : GraphChange Unit :=
  modify fun graph => entries.foldl (fun graph (key, _) =>
    graph.modify key fun node =>
      if node.kind == .mark then { node with kind := .text } else node) graph

mutual

/-- Merges the mapping at a place, in at most so many steps. -/
def merge : Nat → Nat → GraphChange Unit
  | 0, _ => throw .malformed
  | fuel + 1, place => do
    let taken ← takeMerged fuel place 0
    let entries ← entriesAt place
    nameMarks entries
    setEntries place (taken ++ entries)

/-- Removes the marks of merges among the entries of a mapping from an index on, and gives the
entries that they take over. -/
def takeMerged : Nat → Nat → Nat → GraphChange (List (Nat × Nat))
  | 0, _, _ => throw .malformed
  | fuel + 1, place, index => do
    let entries ← entriesAt place
    let graph ← get
    let skipped := (entries.drop index).takeWhile fun (key, _) => !isOfKind graph .merge key
    match entries[index + skipped.length]? with
    | none => return []
    | some (_, source) =>
      setEntries place (entries.eraseIdx (index + skipped.length))
      let taken ← mergedEntries fuel source
      return taken ++ (← takeMerged fuel place (index + skipped.length))

/-- The entries of a mapping that is taken over, or of several ones, all of them merged. -/
def mergedEntries : Nat → Nat → GraphChange (List (Nat × Nat))
  | 0, _ => throw .malformed
  | fuel + 1, source => do
    match (← nodeAt source).content with
    | .mapping _ =>
      merge fuel source
      entriesAt source
    | .sequence items =>
      let parts ← items.mapM fun item => do
        let _ ← entriesAt item
        merge fuel item
        entriesAt item
      return parts.reverse.flatten
    | .scalar _ => throw .malformed

end

/-- The number of entries of all mappings. -/
def entryCount (graph : Graph) : Nat :=
  graph.foldl (fun n node =>
    match node.content with
    | .mapping entries => n + entries.length
    | _ => n) 0

/-- The entries of the mapping at a place, merged. -/
def mergedAt (place : Nat) : GraphChange (List (Nat × Nat)) := do
  merge (3 * entryCount (← get) + 3) place
  entriesAt place

end FileClerk.Yaml
