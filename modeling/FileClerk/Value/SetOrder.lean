import FileClerk.Value.Basic

/-!
# The order of sets

The items of a set stand in the order of their slots in a hash table. Numbers have a hash, their
value modulo a Mersenne prime, and the table has more than twice as many slots as items, the number
of slots being a power of two. Items without a hash of their own keep the order they come in.
-/

set_option autoImplicit false

namespace FileClerk.Value

open FileClerk.Number

/-! ## Hashes -/

/-- The prime that hashes of numbers are taken by. -/
def hashModulus : Nat := Nat.pow 2 61 - 1

/-- The hash of infinity. -/
def infinityHash : Nat := 314159

/-- The hash of `num / den`, where `den` is a power of two; that has an inverse which is a power of
two as well. -/
def ratioHash (num den : Nat) : Nat := num * Nat.pow 2 (61 - den.log2 % 61) % hashModulus

/-- The hash of a size with a sign, as an unsigned number of 64 binary digits. The hash -1 is not
used. -/
def signedHash (negative : Bool) (size : Nat) : Nat :=
  if !negative then size else Nat.pow 2 64 - (if size == 1 then 2 else size)

/-- The hash of `value`, if it is a number. -/
def hash? (value : Value) : Option Nat :=
  match value, value.ratio? with
  | .float (.infinite negative), _ => some (signedHash negative infinityHash)
  | _, some (num, den) => some (signedHash (num < 0) (ratioHash num.natAbs den) % Nat.pow 2 64)
  | _, none => none

/-! ## Tables -/

/-- The slots of a table. -/
abbrev Slots := Array (Option Value)

/-- The number of slots that are looked at one after the other. -/
def runLength : Nat := 10

/-- The first free slot of the run of `runLength` slots from `start` on; a run that would leave the
table is that slot only. -/
def freeSlot? (slots : Slots) (start : Nat) : Option Nat :=
  let length := if start + runLength ≤ slots.size then runLength else 1
  (List.range' start length).find? fun slot => slots[slot]? == some none

/-- The slot of an item, out of at most `fuel` runs. The start of the next run depends on the digits
of the hash that are left. -/
def slotOf (slots : Slots) : Nat → Nat → Nat → Nat
  | 0, start, _ => start
  | fuel + 1, start, rest =>
    match freeSlot? slots start with
    | some slot => slot
    | none =>
      let rest := rest / 32
      slotOf slots fuel ((start * 5 + 1 + rest) % slots.size) rest

/-- The table with a further item. -/
def enter (slots : Slots) (item : Value) (hash : Nat) : Slots :=
  slots.setIfInBounds (slotOf slots (slots.size + 64) (hash % slots.size) hash) (some item)

/-- The number of slots for a number of items. -/
def slotCount (count : Nat) : Nat := if count < 5 then 8 else Nat.pow 2 (Nat.log2 (2 * count) + 1)

/-- The items of a set in the order of their slots. -/
def inSetOrder (items : List Value) : List Value :=
  match items.mapM fun item => item.hash?.map fun hash => (item, hash) with
  | none => items
  | some hashed =>
    let slots : Slots := Array.replicate (slotCount items.length) none
    (hashed.foldl (fun slots (item, hash) => enter slots item hash) slots).toList.filterMap id

end FileClerk.Value
