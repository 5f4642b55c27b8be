import Mathlib.Data.String.Basic
import FileClerk.Proofs.Collection.Sort

/-!
# Stable sorts

A sort key gives each record a value: its size, its place in time, or its name with letter case
folded. A stable sort puts these values in order and leaves records of one value in their places
among each other (`Stable`). At each value it has the records of the collection in their order, so
there is one such list only (`Stable.unique`), and a stable sort that is turned round is the stable
sort of the collection turned round (`Stable.reverse`).

The sorts of a collection are stable in both directions, and the newest or oldest records are the
first ones of the sort by time (`sorted_isStable`).
-/

set_option autoImplicit false

namespace FileClerk.Collection

open FileClerk.Text FileClerk.Command

/-! ## Values of a sort key -/

/-- The type of the values that `key` compares. -/
def SortValue : SortKey → Type
  | .size => Nat
  | .date => Int
  | .name => String

instance SortValue.instLinearOrder : (key : SortKey) → LinearOrder (SortValue key)
  | .size => inferInstanceAs (LinearOrder Nat)
  | .date => inferInstanceAs (LinearOrder Int)
  | .name => inferInstanceAs (LinearOrder String)

/-- The value of a record under `key`: its `size`, the `place` of its moment, or its `nameKey`. -/
def sortValue : (key : SortKey) → Record → SortValue key
  | .size, r => r.size
  | .date, r => r.modified.place
  | .name, r => nameKey r

/-- The record `a` may stand before `b`: its `sortValue` is not above that of `b`, or not below it
where the order is `descending`. -/
def MayPrecede (key : SortKey) (descending : Bool) (a b : Record) : Prop :=
  if descending then sortValue key b ≤ sortValue key a else sortValue key a ≤ sortValue key b

section Values

variable {key : SortKey} {descending : Bool} {files files' ordered ordered' : List Record}

theorem precedes_iff {a b : Record} :
    precedes key a b = true ↔ sortValue key a ≤ sortValue key b := by
  cases key with
  | size => exact decide_eq_true_iff
  | date => exact decide_eq_true_iff
  | name => exact decide_eq_true_iff

theorem inOrder_iff_mayPrecede {a b : Record} :
    inOrder key descending a b = true ↔ MayPrecede key descending a b := by
  cases descending with
  | false => exact precedes_iff
  | true => exact precedes_iff

/-- Records that may stand on either side of each other are of one value. -/
theorem MayPrecede.antisymm {a b : Record} (h : MayPrecede key descending a b)
    (h' : MayPrecede key descending b a) : sortValue key a = sortValue key b := by
  cases descending with
  | false => exact le_antisymm h h'
  | true => exact le_antisymm h' h

/-- Turning the order round lets the records change places. -/
theorem mayPrecede_not_iff {a b : Record} :
    MayPrecede key (!descending) a b ↔ MayPrecede key descending b a := by
  cases descending with
  | false => exact Iff.rfl
  | true => exact Iff.rfl

/-- The records of a collection that have a value. -/
def withValue (key : SortKey) (value : SortValue key) (files : List Record) : List Record :=
  files.filter fun record => sortValue key record = value

theorem mem_withValue {value : SortValue key} {r : Record} :
    r ∈ withValue key value files ↔ r ∈ files ∧ sortValue key r = value := by
  rw [withValue, List.mem_filter, decide_eq_true_eq]

theorem withValue_cons (value : SortValue key) (first : Record) (rest : List Record) :
    withValue key value (first :: rest) =
      if sortValue key first = value then first :: withValue key value rest
      else withValue key value rest := by
  simp only [withValue, List.filter_cons, decide_eq_true_eq]

/-- Lists with the same records at each value have the same records. -/
theorem perm_of_withValue_eq
    (hties : ∀ value, withValue key value files = withValue key value files') :
    files.Perm files' := by
  rw [List.perm_iff_count]
  intro r
  have hcount := congrArg (List.count r) (hties (sortValue key r))
  rwa [withValue, withValue, List.count_filter (by simp), List.count_filter (by simp)] at hcount

/-- Lists in order are equal if their records at each value are. -/
theorem eq_of_withValue_eq (h : ordered.Pairwise (MayPrecede key descending))
    (h' : ordered'.Pairwise (MayPrecede key descending))
    (hties : ∀ value, withValue key value ordered = withValue key value ordered') :
    ordered = ordered' := by
  have hperm := perm_of_withValue_eq hties
  induction ordered generalizing ordered' with
  | nil => exact (List.nil_perm.1 hperm).symm
  | cons first rest ih =>
      cases ordered' with
      | nil => exact absurd hperm.symm (List.not_perm_nil_cons first rest)
      | cons first' rest' =>
          obtain ⟨hfirst, hrest⟩ := List.pairwise_cons.1 h
          obtain ⟨hfirst', hrest'⟩ := List.pairwise_cons.1 h'
          -- each of the two first records may stand before the other one
          have hvalue : sortValue key first = sortValue key first' := by
            rcases List.mem_cons.1 (hperm.mem_iff.2 List.mem_cons_self) with rfl | hin
            · rfl
            rcases List.mem_cons.1 (hperm.mem_iff.1 List.mem_cons_self) with rfl | hin'
            · rfl
            exact (hfirst first' hin).antisymm (hfirst' first hin')
          have hheads := hties (sortValue key first)
          rw [withValue_cons, withValue_cons, if_pos rfl, if_pos hvalue.symm] at hheads
          obtain ⟨rfl, -⟩ := List.cons.inj hheads
          have htails : ∀ value, withValue key value rest = withValue key value rest' := by
            intro value
            have htie := hties value
            rw [withValue_cons, withValue_cons] at htie
            split at htie
            · exact (List.cons.inj htie).2
            · exact htie
          rw [ih hrest hrest' htails (perm_of_withValue_eq htails)]

/-! ## Stable orders -/

/-- The list `ordered` has the records of `files`, its values do not fall, or do not rise where the
order is `descending`, and records of one value keep their places among each other (`ties`). -/
structure Stable (key : SortKey) (descending : Bool) (files ordered : List Record) : Prop where
  perm : ordered.Perm files
  inOrder : ordered.Pairwise (MayPrecede key descending)
  ties : ∀ value, withValue key value ordered = withValue key value files

/-- The predicate `Stable key descending files` holds of one list at most. -/
theorem Stable.unique (h : Stable key descending files ordered)
    (h' : Stable key descending files ordered') : ordered = ordered' :=
  eq_of_withValue_eq h.inOrder h'.inOrder fun value => (h.ties value).trans (h'.ties value).symm

/-- Reversed, the list is `Stable` for the other direction and the reversed collection. -/
theorem Stable.reverse (h : Stable key descending files ordered) :
    Stable key (!descending) files.reverse ordered.reverse where
  perm := ordered.reverse_perm.trans (h.perm.trans files.reverse_perm.symm)
  inOrder := List.pairwise_reverse.2 (h.inOrder.imp mayPrecede_not_iff.2)
  ties := by
    intro value
    have hties := h.ties value
    rw [withValue, withValue] at hties ⊢
    rw [List.filter_reverse, List.filter_reverse, hties]

/-- The result of `arranged` is stable. -/
theorem stable_arranged (key : SortKey) (descending : Bool) (files : List Record) :
    Stable key descending files (arranged (some key) descending files) where
  perm := arranged_perm (some key) descending files
  inOrder := (arranged_pairwise key descending files).imp inOrder_iff_mayPrecede.1
  ties := by
    intro value
    -- records of one value may stand in any order, so a sort of them moves none
    have hpart : (withValue key value files).Pairwise
        fun a b => inOrder key descending a b = true := by
      refine List.pairwise_of_forall_mem_list fun a ha b hb => inOrder_iff_mayPrecede.2 ?_
      have hsame : sortValue key a = sortValue key b :=
        (mem_withValue.1 ha).2.trans (mem_withValue.1 hb).2.symm
      cases descending with
      | false => exact le_of_eq hsame
      | true => exact le_of_eq hsame.symm
    rw [withValue, arranged_filter]
    exact List.mergeSort_of_pairwise hpart

/-- A descending sort is an ascending one of `files.reverse`, reversed. -/
theorem reverse_arranged (key : SortKey) (files : List Record) :
    (arranged (some key) true files).reverse = arranged (some key) false files.reverse :=
  (stable_arranged key true files).reverse.unique (stable_arranged key false files.reverse)

end Values

/-! ## Orders by time -/

/-- The first record may stand before the second one: it is no older where the newest come first,
and no newer where the oldest do. -/
def InTime (newestFirst : Bool) (a b : Record) : Prop :=
  if newestFirst then b.modified.place ≤ a.modified.place
  else a.modified.place ≤ b.modified.place

/-- The records of a collection at one place in time. -/
def atPlace (place : Int) (files : List Record) : List Record :=
  files.filter fun record => record.modified.place == place

/-- The list `ordered` has the records of `files`, newest first or oldest first, and records of one
moment keep their places among each other. -/
structure StableByTime (newestFirst : Bool) (files ordered : List Record) : Prop where
  inTime : ordered.Pairwise (InTime newestFirst)
  ties : ∀ place, atPlace place ordered = atPlace place files

/-- The relation `StableByTime` is `Stable` with the key `date`. -/
theorem stableByTime_iff {newestFirst : Bool} {files ordered : List Record} :
    StableByTime newestFirst files ordered ↔ Stable .date newestFirst files ordered := by
  have hvalue : ∀ (place : Int) (part : List Record),
      atPlace place part = withValue .date place part := by
    intro place part
    refine List.filter_congr fun record _ => ?_
    exact beq_eq_decide record.modified.place place
  constructor
  · intro h
    have hties : ∀ value : SortValue .date,
        withValue .date value ordered = withValue .date value files := fun place =>
      (hvalue place ordered).symm.trans ((h.ties place).trans (hvalue place files))
    exact ⟨perm_of_withValue_eq hties, h.inTime, hties⟩
  · intro h
    refine ⟨h.inOrder, fun place => ?_⟩
    rw [hvalue, hvalue]
    exact h.ties place

/-- The order by time that leaves records of one moment in their places. -/
theorem stableByTime_arranged (newestFirst : Bool) (files : List Record) :
    StableByTime newestFirst files (arranged (some .date) newestFirst files) :=
  stableByTime_iff.2 (stable_arranged .date newestFirst files)

/-- There is one such order only. -/
theorem StableByTime.unique {newestFirst : Bool} {files ordered ordered' : List Record}
    (h : StableByTime newestFirst files ordered) (h' : StableByTime newestFirst files ordered') :
    ordered = ordered' :=
  (stableByTime_iff.1 h).unique (stableByTime_iff.1 h')

/-! ## Sorts of a collection -/

/-- The function `sorted` gives the one list that is `Stable` for the collection. Descending, it is
the ascending sort of `files.reverse`, reversed. What `byRecency` gives up to a limit are the first
records of the sort by `date`. -/
theorem sorted_isStable {key : SortKey} {descending : Bool} {files : List Record}
    (h : key = .date → MutuallyComparable files) :
    ∃ ordered, sorted (some key) descending files = .ok ordered ∧
      (∀ l, Stable key descending files l ↔ l = ordered) ∧
      (descending = true → sorted (some key) false files.reverse = .ok ordered.reverse) ∧
      (key = .date → ∀ n : Nat, byRecency descending (some n) files = .ok (ordered.take n)) := by
  have hsorted : ∀ (way : Bool) {part : List Record}, part ⊆ files →
      sorted (some key) way part = .ok (arranged (some key) way part) := by
    intro way part hpart
    rw [sorted_eq, if_neg]
    rintro ⟨hkey, hincomparable⟩
    exact hincomparable ((h (Option.some.inj hkey)).mono hpart)
  have hstable := stable_arranged key descending files
  refine ⟨arranged (some key) descending files, hsorted descending (List.Subset.refl files), ?_,
    ?_, ?_⟩
  · exact fun l => ⟨fun hl => hl.unique hstable, fun hl => hl ▸ hstable⟩
  · rintro rfl
    rw [hsorted false fun r hr => List.mem_reverse.1 hr, reverse_arranged]
  · rintro rfl n
    have hlimit : ¬ ((n : Int) < 0) := by omega
    rw [byRecency_eq, if_pos (h rfl)]
    simp only [upTo, if_neg hlimit, Int.toNat_natCast]

/-- Two records of one instant, read from clocks an hour apart, and a later one. -/
def oneInstant : List Record :=
  [⟨"1", "plan.pdf", "pdf", 2048, ⟨7200000000, some 3600⟩, ""⟩,
    ⟨"2", "Plan.pdf", "pdf", 1024, ⟨3600000000, some 0⟩, ""⟩,
    ⟨"3", "notes.txt", "txt", 2048, ⟨5400000000, some 0⟩, ""⟩]

theorem sorted_isStable_oneInstant :
    ∃ ordered, sorted (some .date) true oneInstant = .ok ordered ∧
      (∀ l, Stable .date true oneInstant l ↔ l = ordered) ∧
      (true = true → sorted (some .date) false oneInstant.reverse = .ok ordered.reverse) ∧
      (SortKey.date = .date →
        ∀ n : Nat, byRecency true (some n) oneInstant = .ok (ordered.take n)) :=
  sorted_isStable fun _ => by decide

end FileClerk.Collection
