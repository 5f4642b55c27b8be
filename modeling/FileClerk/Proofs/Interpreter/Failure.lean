import FileClerk.Proofs.Interpreter.Response

/-!
# Commands that fail

A command has an answer or fails, and there are two ways to fail: the text names a size that is
beyond the range of decimal numbers, or the branch that answers orders by time records whose moments
cannot be compared. `process_eq_fault_iff` tells the two apart, and `process_isOk_iff` is the exact
condition for an answer.

The second failure needs nothing but two files, one of them with an offset on its moment
(`process_not_total`).
-/

set_option autoImplicit false

namespace FileClerk

open FileClerk.Text FileClerk.Command FileClerk.Collection

/-- The records `part` that a command orders by time: its text is read, and `timeOrdered?` of the
branch that answers are these records. -/
def Interpreter.OrdersByTime (i : Interpreter) (command : Option String)
    (files part : List Record) : Prop :=
  ∃ r intent, i.read (command.getD "") (commandText command) = .ok r ∧
    i.branch? (commandText command) = some intent ∧
    i.timeOrdered? (commandText command) r files intent = some part

/-- A blank text names no size. -/
theorem commandText_ne_nil_of_sizeTooLarge {command : Option String}
    (h : SizeTooLarge (commandText command)) : commandText command ≠ [] := by
  intro hblank
  obtain ⟨p, hfirst, -⟩ := h
  rw [hblank] at hfirst
  cases hfirst

/-- A command fails with `sizeOutOfRange` for a text that is `SizeTooLarge`, and with
`incomparableMoments` for records that it `OrdersByTime` and that are not `MutuallyComparable`. -/
theorem process_eq_fault_iff {i : Interpreter} {command : Option String} {files : List Record}
    {fault : CommandFault} :
    i.process command files = .error fault ↔
      fault = .sizeOutOfRange ∧ SizeTooLarge (commandText command) ∨
        fault = .incomparableMoments ∧
          ∃ part, i.OrdersByTime command files part ∧ ¬ MutuallyComparable part := by
  rw [process_eq_error_iff]
  constructor
  · rintro ⟨-, hread | ⟨r, intent, hread, hbranch, hresponse⟩⟩
    · exact Or.inl (read_eq_error_iff.1 hread)
    · obtain ⟨hfault, part, hpart, hincomparable⟩ := respond_eq_error_iff.1 hresponse
      exact Or.inr ⟨hfault, part, ⟨r, intent, hread, hbranch, hpart⟩, hincomparable⟩
  · rintro (⟨hfault, hlarge⟩ | ⟨hfault, part, ⟨r, intent, hread, hbranch, hpart⟩, hincomparable⟩)
    · exact ⟨commandText_ne_nil_of_sizeTooLarge hlarge,
        Or.inl (read_eq_error_iff.2 ⟨hfault, hlarge⟩)⟩
    · exact ⟨ne_nil_of_callsFor (callsFor_of_branch? hbranch), Or.inr ⟨r, intent, hread, hbranch,
        respond_eq_error_iff.2 ⟨hfault, part, hpart, hincomparable⟩⟩⟩

/-- Commands over files that can be compared fail for a size beyond range only. -/
theorem exists_process_of_comparable {i : Interpreter} {command : Option String}
    {files : List Record} (hfiles : MutuallyComparable files)
    (hsize : ¬ SizeTooLarge (commandText command)) : ∃ a, i.process command files = .ok a := by
  cases hprocess : i.process command files with
  | ok a => exact ⟨a, rfl⟩
  | error fault =>
      exfalso
      rcases process_eq_fault_iff.1 hprocess with ⟨-, hlarge⟩ | ⟨-, part, horders, hincomparable⟩
      · exact hsize hlarge
      · obtain ⟨r, intent, -, -, hpart⟩ := horders
        exact hincomparable (hfiles.mono (timeOrdered?_sublist hpart).subset)

/-- A command has an answer when its text is not `SizeTooLarge` and the records that it
`OrdersByTime` are `MutuallyComparable`, and only then. -/
theorem process_isOk_iff (i : Interpreter) (command : Option String) (files : List Record) :
    (∃ a, i.process command files = .ok a) ↔
      ¬ SizeTooLarge (commandText command) ∧
        ∀ part, i.OrdersByTime command files part → MutuallyComparable part := by
  have hfails : (¬ ∃ a, i.process command files = .ok a) ↔
      ∃ fault, i.process command files = .error fault := by
    cases i.process command files with
    | error fault => simp
    | ok a => simp
  rw [← not_iff_not, hfails]
  simp only [process_eq_fault_iff]
  constructor
  · rintro ⟨fault, ⟨-, hlarge⟩ | ⟨-, part, horders, hincomparable⟩⟩ ⟨hsize, hcomparable⟩
    · exact hsize hlarge
    · exact hincomparable (hcomparable part horders)
  · intro hnot
    -- a size beyond range is found first, before any record is ordered
    by_cases hlarge : SizeTooLarge (commandText command)
    · exact ⟨.sizeOutOfRange, Or.inl ⟨rfl, hlarge⟩⟩
    · by_contra hnone
      refine hnot ⟨hlarge, fun part horders => ?_⟩
      by_contra hincomparable
      exact hnone ⟨.incomparableMoments, Or.inr ⟨rfl, part, horders, hincomparable⟩⟩

/-- Two files, one of them with an offset on its moment, have no newest one: `Show recent files`
fails. -/
theorem process_not_total :
    ¬ ∀ (i : Interpreter) (command : Option String) (files : List Record),
      ∃ a, i.process command files = .ok a := by
  intro htotal
  have hfails : (Interpreter.ofSettings {} ⟨0, none⟩ none).process (some "Show recent files")
      [⟨"1", "plan.pdf", "pdf", 2048, ⟨0, none⟩, "plan.pdf"⟩,
        ⟨"2", "notes.txt", "txt", 512, ⟨0, some 0⟩, "notes.txt"⟩] =
      .error .incomparableMoments := by
    decide +kernel
  obtain ⟨a, hanswer⟩ := htotal (Interpreter.ofSettings {} ⟨0, none⟩ none)
    (some "Show recent files")
    [⟨"1", "plan.pdf", "pdf", 2048, ⟨0, none⟩, "plan.pdf"⟩,
      ⟨"2", "notes.txt", "txt", 512, ⟨0, some 0⟩, "notes.txt"⟩]
  rw [hfails] at hanswer
  cases hanswer

end FileClerk
