import FileClerk.Collection.Basic
import FileClerk.Proofs.Interpreter.Response

/-!
# Searches and sorts in any order

A search that does not ask for new or old files keeps the records that meet its criteria, and
whether a record does depends on the text alone (`Criteria.chosen_eq_filter`). So two searches give
the same files whichever of them comes first. A sort keeps the records of the named types and puts
them in order, and since it leaves ties in their places, a search may as well come before the sort
as after it (`inTurn_comm`).
-/

set_option autoImplicit false

namespace FileClerk

open FileClerk.Text FileClerk.Command FileClerk.Collection

/-! ## Commands in turn -/

/-- The files that commands lead to, each one processed on the `files` of the answer before it. -/
def Interpreter.inTurn (i : Interpreter) :
    List (Option String) → List Record → Except CommandFault (List Record)
  | [], files => .ok files
  | command :: rest, files => (i.process command files).bind fun a => i.inTurn rest a.files

/-- The command is read, and `branch?` names `intent` for it. -/
def Interpreter.AnsweredBy (i : Interpreter) (command : Option String) (intent : Intent) : Prop :=
  ∃ r, i.read (command.getD "") (commandText command) = .ok r ∧
    i.branch? (commandText command) = some intent

theorem inTurn_pair {i : Interpreter} {first second : Option String} {files : List Record}
    {a b : Answer} (hfirst : i.process first files = .ok a)
    (hsecond : i.process second a.files = .ok b) :
    i.inTurn [first, second] files = .ok b.files := by
  simp only [Interpreter.inTurn, hfirst, hsecond, Except.bind]

/-! ## Searches -/

/-- The record has the name, the size and the type that `c` asks for. -/
def Criteria.meets (c : Criteria) (record : Record) : Bool :=
  hasName c.term record && hasSize c.threshold record && hasType (c.extensions.getD []) record

/-- Without `recency`, `chosen` is the filter by `meets`. -/
theorem Criteria.chosen_eq_filter {c : Criteria} (h : c.recency = none) (files : List Record) :
    c.chosen files = files.filter c.meets := by
  have hlatest : c.latest (c.matching files) = c.matching files := by
    unfold Criteria.latest
    rw [h]
  rw [Criteria.chosen, hlatest, Criteria.matching, withTypes_eq_filter, withSize_eq_filter,
    withName_eq_filter, List.filter_filter, List.filter_filter]
  rfl

section Branches

variable {i : Interpreter} {command : Option String} {r : Reading} {files : List Record}

/-- The branch that the table names answers if the records that it orders by time can be
compared. -/
theorem process_eq_response {intent : Intent}
    (hread : i.read (command.getD "") (commandText command) = .ok r)
    (hbranch : i.branch? (commandText command) = some intent)
    (hcomparable : ∀ part, i.timeOrdered? (commandText command) r files intent = some part →
      MutuallyComparable part) :
    i.process command files = .ok (i.response (commandText command) r files intent) :=
  process_eq_ok_iff.2 (.branch r intent _ (ne_nil_of_callsFor (callsFor_of_branch? hbranch)) hread
    hbranch (respond_eq_ok_iff.2 ⟨hcomparable, rfl⟩))

/-- Without one of `recentWords` and `oldWords` there is no `recency?`. -/
theorem recency?_eq_none {text : List Char} (h : ¬ OccursAny (recentWords ++ oldWords) text) :
    recency? text = none := by
  rw [← Option.not_isSome_iff_eq_none, recency?_isSome_iff]
  exact h

/-- The answer to a search that does not ask for new or old files lists the records that meet its
criteria, whatever the collection. -/
theorem process_search (hread : i.read (command.getD "") (commandText command) = .ok r)
    (hbranch : i.branch? (commandText command) = some .filter)
    (hage : ¬ OccursAny (recentWords ++ oldWords) (commandText command)) (files : List Record) :
    ∃ a, i.process command files = .ok a ∧
      a.files = files.filter (i.criteria (commandText command) r).meets := by
  have hrecency : recency? (commandText command) = none := recency?_eq_none hage
  refine ⟨_, process_eq_response hread hbranch ?_, Criteria.chosen_eq_filter hrecency files⟩
  intro part hpart
  simp [Interpreter.timeOrdered?, hrecency] at hpart

/-- The answer to a sort lists the records of the named types in order. -/
theorem process_sort (hread : i.read (command.getD "") (commandText command) = .ok r)
    (hbranch : i.branch? (commandText command) = some .sort) (hfiles : MutuallyComparable files) :
    ∃ a, i.process command files = .ok a ∧
      a.files = i.ordered (commandText command) r files :=
  ⟨_, process_eq_response hread hbranch fun _ hpart =>
    hfiles.mono (timeOrdered?_sublist hpart).subset, rfl⟩

/-- A sort commutes with a filter. -/
theorem ordered_filter (i : Interpreter) (text : List Char) (r : Reading) (keep : Record → Bool)
    (files : List Record) :
    i.ordered text r (files.filter keep) = (i.ordered text r files).filter keep := by
  simp only [Interpreter.ordered, Interpreter.sortable, withTypes_eq_filter]
  rw [arranged_filter, List.filter_comm]

end Branches

/-! ## Either order -/

/-- Searches without `recentWords` and `oldWords` give the same files in either order, and so do
such a search and a sort. -/
theorem inTurn_comm {i : Interpreter} {search search' sort : Option String} {files : List Record}
    (hsearch : i.AnsweredBy search .filter)
    (hage : ¬ OccursAny (recentWords ++ oldWords) (commandText search))
    (hsearch' : i.AnsweredBy search' .filter)
    (hage' : ¬ OccursAny (recentWords ++ oldWords) (commandText search'))
    (hsort : i.AnsweredBy sort .sort) (hfiles : MutuallyComparable files) :
    (∃ found, i.inTurn [search, search'] files = .ok found ∧
        i.inTurn [search', search] files = .ok found) ∧
      ∃ found, i.inTurn [search, sort] files = .ok found ∧
        i.inTurn [sort, search] files = .ok found := by
  obtain ⟨r, hread, hbranch⟩ := hsearch
  obtain ⟨r', hread', hbranch'⟩ := hsearch'
  obtain ⟨rs, hreads, hbranchs⟩ := hsort
  obtain ⟨a, ha, hafiles⟩ := process_search hread hbranch hage files
  constructor
  · -- both orders keep the records that meet the criteria of both searches
    obtain ⟨b, hb, hbfiles⟩ := process_search hread' hbranch' hage' a.files
    obtain ⟨a', ha', hafiles'⟩ := process_search hread' hbranch' hage' files
    obtain ⟨b', hb', hbfiles'⟩ := process_search hread hbranch hage a'.files
    have hsame : b'.files = b.files := by
      rw [hbfiles', hafiles', hbfiles, hafiles, List.filter_comm]
    exact ⟨b.files, inTurn_pair ha hb, hsame ▸ inTurn_pair ha' hb'⟩
  · -- the files that a search leaves can still be compared, and the sort moves no tie
    have hpart : MutuallyComparable a.files := by
      rw [hafiles]
      exact hfiles.mono List.filter_sublist.subset
    obtain ⟨b, hb, hbfiles⟩ := process_sort hreads hbranchs hpart
    obtain ⟨a', ha', hafiles'⟩ := process_sort hreads hbranchs hfiles
    obtain ⟨b', hb', hbfiles'⟩ := process_search hread hbranch hage a'.files
    have hsame : b'.files = b.files := by
      rw [hbfiles', hafiles', hbfiles, hafiles, ordered_filter]
    exact ⟨b.files, inTurn_pair ha hb, hsame ▸ inTurn_pair ha' hb'⟩

/-- The large images of the sample and its images by date, whichever command comes first. -/
theorem inTurn_comm_sample :
    (∃ found, (Interpreter.ofSettings {} ⟨0, none⟩ none).inTurn
          [some "Show images", some "Find large files"] (sample sampleFolder) = .ok found ∧
        (Interpreter.ofSettings {} ⟨0, none⟩ none).inTurn
          [some "Find large files", some "Show images"] (sample sampleFolder) = .ok found) ∧
      ∃ found, (Interpreter.ofSettings {} ⟨0, none⟩ none).inTurn
          [some "Show images", some "Sort by date"] (sample sampleFolder) = .ok found ∧
        (Interpreter.ofSettings {} ⟨0, none⟩ none).inTurn
          [some "Sort by date", some "Show images"] (sample sampleFolder) = .ok found := by
  have himages : (Interpreter.ofSettings {} ⟨0, none⟩ none).AnsweredBy
      (some "Show images") .filter :=
    ⟨⟨["image"], none, none, [.filter]⟩, by decide +kernel, by decide +kernel⟩
  have hlarge : (Interpreter.ofSettings {} ⟨0, none⟩ none).AnsweredBy
      (some "Find large files") .filter :=
    ⟨⟨[], none, none, [.filter]⟩, by decide +kernel, by decide +kernel⟩
  have hsort : (Interpreter.ofSettings {} ⟨0, none⟩ none).AnsweredBy
      (some "Sort by date") .sort :=
    ⟨⟨[], none, none, [.sort]⟩, by decide +kernel, by decide +kernel⟩
  have hage : ¬ OccursAny (recentWords ++ oldWords) (commandText (some "Show images")) := by
    rw [← recency?_isSome_iff]
    decide +kernel
  have hage' : ¬ OccursAny (recentWords ++ oldWords) (commandText (some "Find large files")) := by
    rw [← recency?_isSome_iff]
    decide +kernel
  exact inTurn_comm himages hage hlarge hage' hsort (by decide)

end FileClerk
