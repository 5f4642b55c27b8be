import FileClerk.Moment
import FileClerk.Number.Literal

/-!
# Values

Settings files, log fields and requests hold values whose shape is not known in advance: scalars and
collections, nested to any depth. A mapping keeps its entries in order and has at most one entry for
a key.

A collection may contain itself. Such collections are the cells of a knot. Inside the cells a strand
stands for a cell by its index, and a knot is one of its cells; its `front` is the collection whose
members are values of their own again.
-/

set_option autoImplicit false

namespace FileClerk

open FileClerk.Number

/-- The brackets that a collection is shown in. -/
inductive Bracket where
  | square
  | round
  | curly
  deriving DecidableEq, Repr

/-- A value of a settings file or a request. -/
inductive Value where
  | null
  | bool (b : Bool)
  | int (n : Int)
  | float (x : Binary64)
  | text (s : String)
  | bytes (b : List UInt8)
  | date (d : Date)
  | moment (m : Moment)
  | list (items : List Value)
  | tuple (items : List Value)
  | set (items : List Value)
  | map (entries : List (Value × Value))
  | strand (bracket : Bracket) (index : Nat)
  | knot (cells : List Value) (index : Nat)
  deriving Inhabited, Repr

namespace Value

/-! ## Equality -/

mutual

/-- The values are of one kind and have equal contents. -/
def beq : Value → Value → Bool
  | null, null => true
  | bool a, bool b => a == b
  | int m, int n => m == n
  | float x, float y => x == y
  | text s, text t => s == t
  | bytes a, bytes b => a == b
  | date d, date e => d == e
  | moment m, moment n => m == n
  | list items, list others => beqItems items others
  | tuple items, tuple others => beqItems items others
  | set items, set others => beqItems items others
  | map entries, map others => beqEntries entries others
  | strand bracket index, strand bracket' index' => bracket == bracket' && index == index'
  | knot cells index, knot cells' index' => beqItems cells cells' && index == index'
  | _, _ => false

/-- The items of two collections are equal one by one. -/
def beqItems : List Value → List Value → Bool
  | [], [] => true
  | item :: rest, other :: others => beq item other && beqItems rest others
  | _, _ => false

/-- The entries of two mappings are equal one by one. -/
def beqEntries : List (Value × Value) → List (Value × Value) → Bool
  | [], [] => true
  | (key, value) :: rest, (key', value') :: others =>
    beq key key' && beq value value' && beqEntries rest others
  | _, _ => false

end

instance : BEq Value := ⟨beq⟩

/-! ## Knots -/

mutual

/-- The value with `strandTo` and `knotTo` in place of its strands and knots. -/
def mapLinks (strandTo : Bracket → Nat → Value) (knotTo : List Value → Nat → Value) :
    Value → Value
  | list items => list (mapLinksItems strandTo knotTo items)
  | tuple items => tuple (mapLinksItems strandTo knotTo items)
  | set items => set (mapLinksItems strandTo knotTo items)
  | map entries => map (mapLinksEntries strandTo knotTo entries)
  | strand bracket index => strandTo bracket index
  | knot cells index => knotTo cells index
  | null => null
  | bool b => bool b
  | int n => int n
  | float x => float x
  | text s => text s
  | bytes b => bytes b
  | date d => date d
  | moment m => moment m

/-- The items of a collection with other values for strands and knots. -/
def mapLinksItems (strandTo : Bracket → Nat → Value) (knotTo : List Value → Nat → Value) :
    List Value → List Value
  | [] => []
  | item :: rest => mapLinks strandTo knotTo item :: mapLinksItems strandTo knotTo rest

/-- The entries of a mapping with other values for strands and knots. -/
def mapLinksEntries (strandTo : Bracket → Nat → Value) (knotTo : List Value → Nat → Value) :
    List (Value × Value) → List (Value × Value)
  | [] => []
  | (key, value) :: rest =>
    (mapLinks strandTo knotTo key, mapLinks strandTo knotTo value)
      :: mapLinksEntries strandTo knotTo rest

end

/-- The value `value` with the cells of a knot for its strands. -/
def tied (cells : List Value) (value : Value) : Value :=
  value.mapLinks (fun _ index => knot cells index) knot

/-- The value as a collection or a scalar: of a knot its cell, with knots for the strands in it. -/
def front : Value → Value
  | knot cells index => ((cells[index]?).getD null).tied cells
  | value => value

/-! ## Kinds -/

/-- The name of the kind of `value`, as messages give it. -/
def kindName (value : Value) : String :=
  match value.front with
  | null => "NoneType"
  | bool _ => "bool"
  | int _ => "int"
  | float _ => "float"
  | text _ => "str"
  | bytes _ => "bytes"
  | date _ => "datetime.date"
  | moment _ => "datetime.datetime"
  | list _ => "list"
  | tuple _ => "tuple"
  | set _ => "set"
  | map _ => "dict"
  | strand _ _ => "object"
  | knot _ _ => "object"

/-- The name of the kind of a value without the module it belongs to. -/
def shortKindName : Value → String
  | date _ => "date"
  | moment _ => "datetime"
  | value => value.kindName

/-- The value `value` counts as true: it is not null, false, zero or empty. -/
def holds (value : Value) : Bool :=
  match value.front with
  | null => false
  | bool b => b
  | int n => n != 0
  | float x => !x.isZero
  | text s => !s.isEmpty
  | bytes b => !b.isEmpty
  | list items => !items.isEmpty
  | tuple items => !items.isEmpty
  | set items => !items.isEmpty
  | map entries => !entries.isEmpty
  | _ => true

/-! ## Keys -/

/-- The exact value of a number; truth values count as one and zero. -/
def ratio? : Value → Option (Int × Nat)
  | bool b => some (if b then 1 else 0, 1)
  | int n => some (n, 1)
  | float x => x.ratio?
  | _ => none

/-- The values `a` and `b` are the same key of a mapping: numbers of one value, moments of one
instant. -/
def sameKey (a b : Value) : Bool :=
  match a, b with
  | moment m, moment n => m.offset.isSome == n.offset.isSome && m.place == n.place
  | _, _ =>
    match a.ratio?, b.ratio? with
    | some (m, n), some (p, q) => m * q == p * n
    | none, none => a == b
    | _, _ => false

/-- The entries with `key` set to `value`; a key that is there keeps its place. -/
def insert (key value : Value) : List (Value × Value) → List (Value × Value)
  | [] => [(key, value)]
  | (k, v) :: rest => if sameKey k key then (k, value) :: rest else (k, v) :: insert key value rest

/-- The entries of `pairs`, the last value winning for a repeated key. -/
def ofPairs (pairs : List (Value × Value)) : List (Value × Value) :=
  pairs.foldl (fun entries (k, v) => insert k v entries) []

/-- The value under the text `key`. -/
def find? (key : String) : List (Value × Value) → Option Value
  | [] => none
  | (k, v) :: rest => if k == text key then some v else find? key rest

/-- The value under the text `key` of a mapping. -/
def field? (key : String) (value : Value) : Option Value :=
  match value.front with
  | map entries => find? key entries
  | _ => none

/-- A mapping with text keys. -/
def ofFields (fields : List (String × Value)) : Value :=
  map (fields.map fun (k, v) => (text k, v))

end Value

end FileClerk
