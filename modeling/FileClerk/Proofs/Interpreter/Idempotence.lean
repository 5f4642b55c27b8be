import FileClerk.Collection.Basic
import FileClerk.Proofs.Interpreter.Response

/-!
# A command run twice

The files of an answer are a fixed point of the command: run on them again, it gives the same
answer in every field (`process_idempotent`). Text, intents and criteria do not depend on the files,
so the second run takes the same branch as the first, and each branch is a fixed point on what it
answered. A selection keeps records with a property that those have already. A sorted collection is
in order with its ties in place, also after a limit and a selection by name. The clusters of
duplicates keep their first records in order. And the second run cannot fail, since it orders by
time only records that the first one ordered.
-/

set_option autoImplicit false

namespace FileClerk

open FileClerk.Text FileClerk.Command FileClerk.Collection

/-! ## Moves -/

/-- The records that `moved` takes are taken whole. -/
theorem moved_moved (i : Interpreter) (r : Reading) (files : List Record) :
    i.moved r (i.moved r files) = i.moved r files :=
  withSize_withTypes_eq_self fun _ hrecord => hrecord

/-- A move gives its answer again on the `files` of the answer. -/
theorem move_move (i : Interpreter) (r : Reading) (files : List Record) :
    i.move r (i.move r files).files = i.move r files := by
  by_cases hmoved : i.moved r files = []
  · rw [move_eq_of_nil hmoved]
    exact move_eq_of_nil hmoved
  · rw [move_eq_of_ne_nil hmoved]
    have hagain : i.moved r (i.moved r files) ≠ [] := by
      rw [moved_moved]
      exact hmoved
    rw [move_eq_of_ne_nil hagain, moved_moved]

/-! ## Searches -/

/-- A `recencyLimit` is not negative, `recent_limit` being positive. -/
theorem recencyLimit_nonneg (i : Interpreter) (text : List Char) :
    ∀ n ∈ i.recencyLimit text, 0 ≤ n := by
  intro n hn
  unfold Interpreter.recencyLimit at hn
  split at hn
  · cases hn
  · cases hn
    exact Int.natCast_nonneg _

namespace Criteria

/-- What a search chooses has the types and sizes that it names. -/
theorem mem_matching_of_mem_chosen {c : Criteria} {files : List Record} {record : Record}
    (h : record ∈ c.chosen files) : record ∈ c.matching files :=
  (c.latest_subperm (c.matching files)).subset (mem_withName.1 h).1

theorem matching_chosen (c : Criteria) (files : List Record) :
    c.matching (c.chosen files) = c.chosen files :=
  withSize_withTypes_eq_self fun _ hrecord => mem_matching_of_mem_chosen hrecord

/-- On a part of its result, `latest` takes everything. -/
theorem latest_eq_self {c : Criteria} (hlimit : ∀ n ∈ c.limit, 0 ≤ n) {part files : List Record}
    (h : part.Sublist (c.latest files)) : c.latest part = part := by
  unfold latest at h ⊢
  cases hrecency : c.recency with
  | none => rfl
  | some newestFirst =>
      rw [hrecency] at h
      -- the part is in order already, and it is no longer than the limit
      have harranged : arranged (some .date) newestFirst part = part :=
        arranged_eq_self (h.trans (upTo_sublist _ _))
      simp only [harranged]
      exact upTo_eq_self hlimit h

/-- Choosing is idempotent: `chosen` takes all of what it took. -/
theorem chosen_chosen {c : Criteria} (hlimit : ∀ n ∈ c.limit, 0 ≤ n) (files : List Record) :
    c.chosen (c.chosen files) = c.chosen files := by
  have hlatest : c.latest (c.chosen files) = c.chosen files :=
    latest_eq_self hlimit (withName_sublist c.term (c.latest (c.matching files)))
  rw [chosen, matching_chosen, hlatest]
  exact withName_eq_self fun record hrecord => (mem_withName.1 hrecord).2

end Criteria

/-! ## Sorts -/

/-- A sort takes all of the records that it put in order. -/
theorem sortable_ordered (i : Interpreter) (text : List Char) (r : Reading)
    (files : List Record) : i.sortable r (i.ordered text r files) = i.ordered text r files := by
  apply withTypes_eq_self
  intro record hrecord
  exact (mem_withTypes.1 (mem_arranged.1 hrecord)).2

/-- A sort leaves the records in the order that it put them in. -/
theorem ordered_ordered (i : Interpreter) (text : List Char) (r : Reading) (files : List Record) :
    i.ordered text r (i.ordered text r files) = i.ordered text r files := by
  rw [Interpreter.ordered, sortable_ordered]
  exact arranged_eq_self (List.Sublist.refl _)

/-! ## Commands -/

/-- Each branch has its `response` again on the files of the answer. -/
theorem response_response (i : Interpreter) (text : List Char) (r : Reading) (files : List Record)
    (intent : Intent) :
    i.response text r (i.response text r files intent).files intent =
      i.response text r files intent := by
  cases intent with
  | move => exact move_move i r files
  | filter =>
      have hlimit : ∀ n ∈ (i.criteria text r).limit, 0 ≤ n := recencyLimit_nonneg i text
      simp only [Interpreter.response, Criteria.chosen_chosen hlimit]
  | sort => simp only [Interpreter.response, ordered_ordered]
  | duplicates => simp only [Interpreter.response, findDuplicates, duplicates_duplicates]

/-- What a branch orders by time on the files of its answer, it ordered before. -/
theorem subset_of_timeOrdered?_response {i : Interpreter} {text : List Char} {r : Reading}
    {files part : List Record} {intent : Intent}
    (h : i.timeOrdered? text r (i.response text r files intent).files intent = some part) :
    ∃ whole, i.timeOrdered? text r files intent = some whole ∧ part ⊆ whole := by
  cases intent with
  | move => cases h
  | filter =>
      simp only [Interpreter.timeOrdered?, Interpreter.response, Criteria.matching_chosen] at h ⊢
      split at h
      · rename_i hrecency
        cases h
        exact ⟨_, if_pos hrecency, fun record => Criteria.mem_matching_of_mem_chosen⟩
      · cases h
  | sort =>
      simp only [Interpreter.timeOrdered?, Interpreter.response, sortable_ordered] at h ⊢
      split at h
      · rename_i hkey
        cases h
        exact ⟨_, if_pos hkey, fun record hrecord => mem_arranged.1 hrecord⟩
      · cases h
  | duplicates => cases h

/-- Each branch gives its answer again on the files of the answer. -/
theorem respond_respond {i : Interpreter} {text : List Char} {r : Reading} {files : List Record}
    {intent : Intent} {a : Answer} (h : i.respond text r files intent = .ok a) :
    i.respond text r a.files intent = .ok a := by
  obtain ⟨hcomparable, rfl⟩ := respond_eq_ok_iff.1 h
  rw [respond_eq_ok_iff]
  refine ⟨fun part hpart => ?_, (response_response i text r files intent).symm⟩
  obtain ⟨whole, hwhole, hsubset⟩ := subset_of_timeOrdered?_response hpart
  exact (hcomparable whole hwhole).mono hsubset

/-- The answer of `process` is its own answer again on `a.files`. -/
theorem process_idempotent {i : Interpreter} {command : Option String} {files : List Record}
    {a : Answer} (h : i.process command files = .ok a) : i.process command a.files = .ok a := by
  rw [process_eq_ok_iff] at h ⊢
  cases h with
  | blank hblank => exact .blank hblank
  | unknown htext hbranch hsize => exact .unknown htext hbranch hsize
  | branch r intent _ htext hread hbranch hresponse =>
      -- reading and branch are those of the text, which is the same
      exact .branch r intent a htext hread hbranch (respond_respond hresponse)

/-- The search for duplicates finds two records of the sample, and those two again among
themselves. -/
theorem process_idempotent_sample :
    (Interpreter.ofSettings {} ⟨0, none⟩ none).process (some "Find duplicate files")
        (sample sampleFolder) =
      .ok ⟨duplicates (sample sampleFolder), .filter, some "Found 2 potential duplicate files",
        none⟩ ∧
    (Interpreter.ofSettings {} ⟨0, none⟩ none).process (some "Find duplicate files")
        (duplicates (sample sampleFolder)) =
      .ok ⟨duplicates (sample sampleFolder), .filter, some "Found 2 potential duplicate files",
        none⟩ := by
  have hfirst : (Interpreter.ofSettings {} ⟨0, none⟩ none).process (some "Find duplicate files")
        (sample sampleFolder) =
      .ok ⟨duplicates (sample sampleFolder), .filter, some "Found 2 potential duplicate files",
        none⟩ := by
    decide +kernel
  exact ⟨hfirst, process_idempotent hfirst⟩

end FileClerk
