import FileClerk.Proofs.Collection.Duplicates
import FileClerk.Proofs.Collection.Select
import FileClerk.Proofs.Collection.Sort
import FileClerk.Proofs.Interpreter.Branch

/-!
# What the branches answer

A branch can fail for one reason only, that it orders records by time whose moments cannot be
compared. `Interpreter.timeOrdered?` says which records a branch orders so, and
`Interpreter.response` what it answers if it does not fail. The two together are all that there is
to a branch (`respond_eq`).

The records of an answer are named as well. A move takes the records of the named types and sizes.
A search selects by type and size, keeps the newest or oldest records of those, and selects by name
last (`Criteria.chosen`). A sort puts the records of the named types in order.
-/

set_option autoImplicit false

namespace FileClerk

open FileClerk.Text FileClerk.Command FileClerk.Collection

/-! ## Moves -/

/-- The records that `_move` takes. -/
def Interpreter.moved (i : Interpreter) (r : Reading) (files : List Record) : List Record :=
  withSize r.threshold (withTypes (i.catalogue.expand r.typeWords) files)

/-- The folder that `_move` takes them to. -/
def Interpreter.folderFor (i : Interpreter) (r : Reading) : String :=
  r.folder.getD (defaultFolder i.catalogue r.typeWords i.clock)

theorem moved_sublist (i : Interpreter) (r : Reading) (files : List Record) :
    (i.moved r files).Sublist files :=
  (withSize_sublist _ _).trans (withTypes_sublist _ _)

/-- A move without a record to take leaves the collection as it is. -/
theorem move_eq_of_nil {i : Interpreter} {r : Reading} {files : List Record}
    (h : i.moved r files = []) :
    i.move r files = ⟨files, .none, some noMatchMessage, none⟩ := by
  unfold Interpreter.moved at h
  simp only [Interpreter.move, h, List.isEmpty_nil, if_true]

/-- A move with a record to take answers with the records and the folder. -/
theorem move_eq_of_ne_nil {i : Interpreter} {r : Reading} {files : List Record}
    (h : i.moved r files ≠ []) :
    i.move r files = ⟨i.moved r files, .move,
      some s!"Moving {(i.moved r files).length} file(s) to folder '{i.folderFor r}'",
      some (i.folderFor r)⟩ := by
  have hempty : (i.moved r files).isEmpty = false := by
    rw [List.isEmpty_eq_false_iff]
    exact h
  unfold Interpreter.moved at hempty
  simp only [Interpreter.move, hempty, Bool.false_eq_true, if_false, Interpreter.moved,
    Interpreter.folderFor]

/-! ## Searches -/

namespace Criteria

/-- The records of the types and sizes that `c` names. -/
def matching (c : Criteria) (files : List Record) : List Record :=
  withSize c.threshold (withTypes (c.extensions.getD []) files)

/-- The first records by time up to `c.limit`, if `c` asks for new or old ones. -/
def latest (c : Criteria) (files : List Record) : List Record :=
  match c.recency with
  | none => files
  | some newestFirst => upTo c.limit (arranged (some .date) newestFirst files)

/-- The records that `c.apply` gives if it does not fail. -/
def chosen (c : Criteria) (files : List Record) : List Record :=
  withName c.term (c.latest (c.matching files))

/-- A search is `chosen`, unless it is for the newest or oldest of records that are not
`MutuallyComparable`. -/
theorem apply_eq (c : Criteria) (files : List Record) :
    c.apply files =
      if c.recency.isSome = true ∧ ¬ MutuallyComparable (c.matching files) then
        .error .incomparableMoments
      else .ok (c.chosen files) := by
  have hmatching : withSize c.threshold (withTypes (c.extensions.getD []) files) =
      c.matching files := rfl
  simp only [apply, chooseRecent, chosen, latest, hmatching]
  cases c.recency with
  | none => simp [bind, Except.bind, pure, Except.pure]
  | some newestFirst =>
      simp only [byRecency_eq]
      by_cases hcomparable : MutuallyComparable (c.matching files)
      · simp [hcomparable, bind, Except.bind, pure, Except.pure]
      · simp [hcomparable, bind, Except.bind]

theorem matching_sublist (c : Criteria) (files : List Record) :
    (c.matching files).Sublist files :=
  (withSize_sublist _ _).trans (withTypes_sublist _ _)

theorem latest_subperm (c : Criteria) (files : List Record) : (c.latest files).Subperm files := by
  unfold latest
  cases c.recency with
  | none => exact List.Subperm.refl files
  | some newestFirst =>
      exact (upTo_sublist _ _).subperm.trans (arranged_perm _ _ _).subperm

/-- A search chooses each record at most as often as it is there. -/
theorem chosen_subperm (c : Criteria) (files : List Record) : (c.chosen files).Subperm files :=
  (withName_sublist _ _).subperm.trans
    ((c.latest_subperm _).trans (c.matching_sublist files).subperm)

end Criteria

/-- The branch `_filter` is given by `chosen`, under the same condition. -/
theorem search_eq (i : Interpreter) (text : List Char) (r : Reading) (files : List Record) :
    i.search text r files =
      if (recency? text).isSome = true ∧
          ¬ MutuallyComparable ((i.criteria text r).matching files) then
        .error .incomparableMoments
      else .ok ⟨(i.criteria text r).chosen files, .filter,
        some s!"Found {((i.criteria text r).chosen files).length} file(s) matching your criteria",
        none⟩ := by
  have hrecency : (i.criteria text r).recency = recency? text := rfl
  rw [Interpreter.search, Criteria.apply_eq, hrecency]
  split
  · rfl
  · rfl

/-- A search goes by the extensions that its type words cover. -/
theorem getD_extensions (i : Interpreter) (text : List Char) (r : Reading) :
    (i.criteria text r).extensions.getD [] = i.catalogue.expand r.typeWords := by
  rw [Interpreter.criteria]
  cases hwords : r.typeWords with
  | nil => rfl
  | cons first rest => rfl

/-! ## Sorts -/

/-- The records that `_sort` puts in order: those of the named types. -/
def Interpreter.sortable (i : Interpreter) (r : Reading) (files : List Record) : List Record :=
  withTypes (i.catalogue.expand r.typeWords) files

/-- What `_sort` lists. -/
def Interpreter.ordered (i : Interpreter) (text : List Char) (r : Reading) (files : List Record) :
    List Record :=
  arranged (chooseSortKey text).1 (chooseSortKey text).2 (i.sortable r files)

/-- The branch `_sort` is given by `ordered`, unless it is by the moments of records that are not
`MutuallyComparable`. -/
theorem sort_eq (i : Interpreter) (text : List Char) (r : Reading) (files : List Record) :
    i.sort text r files =
      if (chooseSortKey text).1 = some .date ∧ ¬ MutuallyComparable (i.sortable r files) then
        .error .incomparableMoments
      else .ok ⟨i.ordered text r files, .filter,
        some s!"Sorted {(i.ordered text r files).length} file(s)", none⟩ := by
  have hsort : i.sort text r files =
      (sorted (chooseSortKey text).1 (chooseSortKey text).2 (i.sortable r files)).map
        fun ordered => ⟨ordered, .filter, some s!"Sorted {ordered.length} file(s)", none⟩ := by
    simp only [Interpreter.sort, Interpreter.sortable]
    cases sorted (chooseSortKey text).1 (chooseSortKey text).2
        (withTypes (i.catalogue.expand r.typeWords) files) with
    | error fault => rfl
    | ok ordered => rfl
  rw [hsort, sorted_eq]
  split
  · rfl
  · rfl

theorem ordered_subperm (i : Interpreter) (text : List Char) (r : Reading) (files : List Record) :
    (i.ordered text r files).Subperm files :=
  (arranged_perm _ _ _).subperm.trans (withTypes_sublist _ _).subperm

/-! ## Answers and failures -/

/-- The answer that `respond` gives if it does not fail. -/
def Interpreter.response (i : Interpreter) (text : List Char) (r : Reading) (files : List Record) :
    Intent → Answer
  | .move => i.move r files
  | .filter =>
    let chosen := (i.criteria text r).chosen files
    ⟨chosen, .filter, some s!"Found {chosen.length} file(s) matching your criteria", none⟩
  | .sort =>
    let ordered := i.ordered text r files
    ⟨ordered, .filter, some s!"Sorted {ordered.length} file(s)", none⟩
  | .duplicates => findDuplicates files

/-- The records that the branch of an intent orders by time, if it orders any so. -/
def Interpreter.timeOrdered? (i : Interpreter) (text : List Char) (r : Reading)
    (files : List Record) : Intent → Option (List Record)
  | .move => none
  | .filter =>
    if (recency? text).isSome then some ((i.criteria text r).matching files) else none
  | .sort => if (chooseSortKey text).1 = some .date then some (i.sortable r files) else none
  | .duplicates => none

section Branches

variable {i : Interpreter} {text : List Char} {r : Reading} {files : List Record} {intent : Intent}

/-- What a branch orders by time is part of the collection. -/
theorem timeOrdered?_sublist {part : List Record}
    (h : i.timeOrdered? text r files intent = some part) : part.Sublist files := by
  cases intent with
  | move => cases h
  | filter =>
      obtain ⟨-, rfl⟩ : _ ∧ (i.criteria text r).matching files = part := by
        simpa [Interpreter.timeOrdered?] using h
      exact Criteria.matching_sublist _ files
  | sort =>
      obtain ⟨-, rfl⟩ : _ ∧ i.sortable r files = part := by
        simpa [Interpreter.timeOrdered?] using h
      exact withTypes_sublist _ files
  | duplicates => cases h

/-- The branch of an intent gives its `response` unless `timeOrdered?` are records that are not
`MutuallyComparable`. -/
theorem respond_eq (i : Interpreter) (text : List Char) (r : Reading) (files : List Record)
    (intent : Intent) :
    i.respond text r files intent =
      match i.timeOrdered? text r files intent with
      | none => .ok (i.response text r files intent)
      | some part =>
          if MutuallyComparable part then .ok (i.response text r files intent)
          else .error .incomparableMoments := by
  cases intent with
  | move => rfl
  | filter =>
      rw [Interpreter.respond, search_eq, Interpreter.timeOrdered?]
      by_cases hrecency : (recency? text).isSome = true
      · by_cases hcomparable : MutuallyComparable ((i.criteria text r).matching files)
        · simp [Interpreter.response, hrecency, hcomparable]
        · simp [hrecency, hcomparable]
      · simp [Interpreter.response, hrecency]
  | sort =>
      rw [Interpreter.respond, sort_eq, Interpreter.timeOrdered?]
      by_cases hkey : (chooseSortKey text).1 = some .date
      · by_cases hcomparable : MutuallyComparable (i.sortable r files)
        · simp [Interpreter.response, hkey, hcomparable]
        · simp [hkey, hcomparable]
      · simp [Interpreter.response, hkey]
  | duplicates => rfl

theorem respond_eq_ok_iff {a : Answer} :
    i.respond text r files intent = .ok a ↔
      (∀ part, i.timeOrdered? text r files intent = some part → MutuallyComparable part) ∧
        a = i.response text r files intent := by
  rw [respond_eq]
  cases i.timeOrdered? text r files intent with
  | none => simp [eq_comm]
  | some part =>
      by_cases hcomparable : MutuallyComparable part
      · simp [hcomparable, eq_comm]
      · simp [hcomparable]

theorem respond_eq_error_iff {fault : CommandFault} :
    i.respond text r files intent = .error fault ↔
      fault = .incomparableMoments ∧
        ∃ part, i.timeOrdered? text r files intent = some part ∧ ¬ MutuallyComparable part := by
  rw [respond_eq]
  cases i.timeOrdered? text r files intent with
  | none => simp
  | some part =>
      by_cases hcomparable : MutuallyComparable part
      · simp [hcomparable]
      · simp [hcomparable, eq_comm]

/-- A branch gives its answer when all moments of the collection can be compared. -/
theorem respond_eq_response (i : Interpreter) (text : List Char) (r : Reading)
    (h : MutuallyComparable files) (intent : Intent) :
    i.respond text r files intent = .ok (i.response text r files intent) := by
  rw [respond_eq_ok_iff]
  exact ⟨fun part hpart => h.mono (timeOrdered?_sublist hpart).subset, rfl⟩

/-- A branch understands the command that it answers. -/
theorem action_response (i : Interpreter) (text : List Char) (r : Reading) (files : List Record)
    (intent : Intent) : (i.response text r files intent).action ≠ .unknown := by
  cases intent with
  | move =>
      simp only [Interpreter.response]
      by_cases hmoved : i.moved r files = []
      · simp [move_eq_of_nil hmoved]
      · simp [move_eq_of_ne_nil hmoved]
  | filter => simp [Interpreter.response]
  | sort => simp [Interpreter.response]
  | duplicates => simp [Interpreter.response, findDuplicates]

end Branches

end FileClerk
