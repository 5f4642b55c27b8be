import FileClerk.Value.Basic

/-!
# Values from cells

Collections that share members, or contain themselves, are made in cells: the members of a cell are
scalars and strands. Here the cells become one value. A cell is settled once all cells it needs are;
the settled cells stand for themselves wherever they are needed. The cells that are never settled
contain themselves, or need cells that do, and become a knot.
-/

set_option autoImplicit false

namespace FileClerk.Value

/-- The index of a strand. -/
def strandIndex? : Value → Option Nat
  | strand _ index => some index
  | _ => none

/-- The indices of the cells that a cell needs. -/
def neededCells : Value → List Nat
  | list items => items.filterMap strandIndex?
  | tuple items => items.filterMap strandIndex?
  | set items => items.filterMap strandIndex?
  | map entries => entries.filterMap fun (_, value) => value.strandIndex?
  | _ => []

/-- The values of the settled cells. -/
abbrev Settled := Array (Option Value)

/-- The value of a cell, if it is settled. -/
def Settled.value? (settled : Settled) (index : Nat) : Option Value := (settled[index]?).join

/-- The value with the settled cells for their strands. -/
def withSettled (settled : Settled) (value : Value) : Value :=
  value.mapLinks (fun bracket index => (settled.value? index).getD (strand bracket index)) knot

/-- The list `settled` with the cell at `index`, if all cells it needs are settled. -/
def settle (cells : Array Value) (settled : Settled) (index : Nat) : Settled :=
  match settled.value? index, cells[index]? with
  | none, some cell =>
    if cell.neededCells.all fun needed => (settled.value? needed).isSome then
      settled.setIfInBounds index (some (cell.withSettled settled))
    else settled
  | _, _ => settled

/-- The list `settled` after an attempt at every cell, the last one first: members are mostly made
behind their collection. -/
def settleRound (cells : Array Value) (settled : Settled) : Settled :=
  (List.range cells.size).reverse.foldl (settle cells) settled

/-- The number of settled cells. -/
def Settled.count (settled : Settled) : Nat := settled.countP Option.isSome

/-- The list `settled` after rounds of `settleRound`, at most as many as `fuel`, until one settles
nothing. -/
def settleAll (cells : Array Value) : Nat → Settled → Settled
  | 0, settled => settled
  | fuel + 1, settled =>
    let next := settleRound cells settled
    if next.count == settled.count then settled else settleAll cells fuel next

/-- The value that `cells` make of the scalar or strand `root`. -/
def assembled (cells : Array Value) (root : Value) : Value :=
  let settled := settleAll cells (cells.size + 1) (Array.replicate cells.size none)
  let loose := (cells.toList.map (withSettled settled))
  root.mapLinks (fun _ index => (settled.value? index).getD (knot loose index)) knot

end FileClerk.Value
