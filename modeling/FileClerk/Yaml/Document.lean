import FileClerk.Value.Knot
import FileClerk.Value.SetOrder
import FileClerk.Yaml.Merge
import FileClerk.Yaml.ScalarValue

/-!
# Values of YAML texts

The value of a text in YAML. Every node has one value, wherever it is a member. A scalar gets its
value where it is met first. A collection gets an empty cell there, and the cells are filled in the
order in which they were made, so that of several failures the one nearest to the root counts. Keys
are scalars, and the last value wins for a repeated key.
-/

set_option autoImplicit false

namespace FileClerk.Yaml

open FileClerk.Text

/-- What is known while values are made: the graph, the values of nodes, the cells, and the
collections in the order in which they are filled, each with its cell. -/
structure Making where
  graph : Graph
  values : Array (Option Value)
  cells : Array Value
  collections : Array (Nat × Nat)

/-- A maker of values. -/
abbrev Maker := StateT Making (Except Fault)

/-! ## Scalars -/

/-- The text that a node has as a scalar. A mapping has that of the value under the mark of a value
among its keys. No chain of such mappings is longer than the graph, unless it has no end. -/
def scalarTextAt (graph : Graph) : Nat → Nat → Except Fault String
  | 0, _ => .error .endless
  | fuel + 1, place => do
    let node ← orMalformed graph[place]?
    match node.content with
    | .scalar text => return text
    | .sequence _ => .error .malformed
    | .mapping entries =>
      let (_, value) ← orMalformed (entries.find? fun (key, _) => isOfKind graph .mark key)
      scalarTextAt graph fuel value

/-- The value that a node has as a scalar. The form of a point in time is asked of the node
itself. -/
def scalarAt (graph : Graph) (place : Nat) (node : Node) : Except Fault Value := do
  if !node.kind.isScalar then .error .malformed
  else
    let text ← scalarTextAt graph (graph.size + 1) place
    match node.kind, node.content with
    | .time, .mapping _ => .error .timeOfMapping
    | kind, _ => scalarValue kind text

/-! ## Cells -/

/-- The empty collection of a kind with its brackets, for the kinds of collections. -/
def emptyCell? : Kind → Option (Bracket × Value)
  | .sequence => some (.square, .list [])
  | .ordered => some (.square, .list [])
  | .pairs => some (.square, .list [])
  | .mapping => some (.curly, .map [])
  | .set => some (.curly, .set [])
  | _ => none

/-- The index of a new cell. -/
def newCell (cell : Value) : Maker Nat := do
  let m ← get
  set { m with cells := m.cells.push cell }
  return m.cells.size

/-- The value of the node at a place; that of a collection is the strand of its cell. -/
def make (place : Nat) : Maker Value := do
  let m ← get
  match m.values[place]?.join, m.graph[place]? with
  | some value, _ => return value
  | none, none => throw .malformed
  | none, some node =>
    let value ← match emptyCell? node.kind with
      | some (bracket, cell) => do
        let index ← newCell cell
        modify fun m => { m with collections := m.collections.push (place, index) }
        pure (Value.strand bracket index)
      | none => liftM (scalarAt m.graph place node)
    modify fun m => { m with values := m.values.setIfInBounds place (some value) }
    return value

/-- The value of a key, which is a scalar. -/
def makeKey (place : Nat) : Maker Value := do
  match ← make place with
  | .strand _ _ => throw .malformed
  | key => return key

/-- The entries of the mapping at a place, once it has been merged. -/
def makeEntries (place : Nat) : Maker (List (Value × Value)) := do
  let m ← get
  let (entries, graph) ← (mergedAt place).run m.graph
  set { m with graph }
  let pairs ← entries.mapM fun (key, value) => do
    let key ← makeKey key
    return (key, ← make value)
  return Value.ofPairs pairs

/-- The items of the sequence at a place. -/
def itemsAt (place : Nat) : Maker (List Nat) := do
  match ((← get).graph[place]?).map Node.content with
  | some (.sequence items) => return items
  | _ => throw .malformed

/-- The pair that a mapping of one entry stands for. -/
def makePair (place : Nat) : Maker Value := do
  match ((← get).graph[place]?).map Node.content with
  | some (.mapping [(key, value)]) =>
    let key ← make key
    let value ← make value
    return .strand .round (← newCell (.tuple [key, value]))
  | _ => throw .malformed

/-- The filled cell of the collection at a place. -/
def filled (kind : Kind) (place : Nat) : Maker Value := do
  match kind with
  | .mapping => return .map (← makeEntries place)
  | .set => return .set (Value.inSetOrder ((← makeEntries place).map (·.1)))
  | .sequence => return .list (← (← itemsAt place).mapM make)
  | _ => return .list (← (← itemsAt place).mapM makePair)

/-- Fills the cells of collections from an index on, at most so many. -/
def fillFrom : Nat → Nat → Maker Unit
  | 0, _ => return
  | fuel + 1, next => do
    let m ← get
    match m.collections[next]? with
    | none => return
    | some (place, index) =>
      let cell ← filled ((m.graph[place]?).map Node.kind |>.getD .unknown) place
      modify fun m => { m with cells := m.cells.setIfInBounds index cell }
      fillFrom fuel (next + 1)

/-! ## Texts -/

/-- The value of a graph at a place. Every collection is filled once. -/
def valueAtPlace (graph : Graph) (place : Nat) : Except Fault Value := do
  let maker : Maker Value := do
    let value ← make place
    fillFrom graph.size 0
    return value
  let (value, made) ← maker.run ⟨graph, Array.replicate graph.size none, #[], #[]⟩
  return Value.assembled made.cells value

/-- The value of a text; a text without a document has the value of nothing. -/
def read (text : String) : Except Fault Value := do
  let chars := withLineFeeds text.toList
  if !chars.all isAllowed then .error .malformed
  else
    match ← nodesOf (tokens chars) with
    | (_, none) => return .null
    | (graph, some root) => valueAtPlace graph root

end FileClerk.Yaml
