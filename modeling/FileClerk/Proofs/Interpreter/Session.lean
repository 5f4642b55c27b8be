import FileClerk.Collection.Basic
import FileClerk.Proofs.Command.Destination
import FileClerk.Proofs.Interpreter.Response

/-!
# Answers along a session

Each branch builds its answer in its own way, and the answers have in common what
`Answer.WellFormed` says: only a move names a folder and it takes at least one file, the message of
a move, a search or a sort counts the files of the answer, and no file is made up or listed more
often than it was there.

Commands follow each other, each one run on the files of the answer before it. `Reachable` holds of
the collections that this leads to. One command lists a part of the files it is run on, so a session
never lists a file that it did not start with (`Reachable.answer_wellFormed`).
-/

set_option autoImplicit false

namespace FileClerk

open FileClerk.Text FileClerk.Command FileClerk.Collection

/-! ## Well-formed answers -/

/-- What holds of every answer of `process` to a command over a collection. -/
structure Answer.WellFormed (command : Option String) (files : List Record) (a : Answer) :
    Prop where
  /-- A `folder` is there for a move, and for nothing else. -/
  folder_iff : a.folder.isSome = true ↔ a.action = .move
  /-- The name of the folder is not empty. -/
  folder_ne : ∀ folder ∈ a.folder, folder ≠ ""
  /-- A move takes at least one file. -/
  takes : a.action = .move → a.files ≠ []
  /-- An answer that does nothing leaves the files as they are. -/
  unchanged : a.action = .none ∨ a.action = .unknown → a.files = files
  /-- Only a blank command has no message. -/
  message_iff : a.message = none ↔ ∀ c ∈ (command.getD "").toList, isBlank c = true
  /-- The message of a move counts its files. -/
  move_counts : a.action = .move → ∃ folder, a.folder = some folder ∧
    a.message = some s!"Moving {a.files.length} file(s) to folder '{folder}'"
  /-- The message of a search, a sort or a search for duplicates counts the files that it found. -/
  filter_counts : a.action = .filter →
    a.message = some s!"Found {a.files.length} file(s) matching your criteria" ∨
      a.message = some s!"Sorted {a.files.length} file(s)" ∨
      a.message = some s!"Found {a.files.length} potential duplicate files"
  /-- Each file is one of the collection, listed at most as often as it is there. -/
  subperm : a.files.Subperm files

/-! ## Folders of moves -/

theorem defaultFolder_ne_empty (catalogue : Catalogue) (words : List String) (clock : Moment) :
    defaultFolder catalogue words clock ≠ "" := by
  have hgenerated : generatedStart ++ clock.stamp ≠ "" := by
    intro hempty
    have hstart : generatedStart = "" := (String.append_eq_empty_iff.1 hempty).1
    exact absurd hstart (by decide)
  unfold defaultFolder
  split
  · -- a folder of the catalogue without a name gives way to a generated one
    split
    · exact hgenerated
    · rename_i hfolder
      rintro rfl
      exact hfolder rfl
  · exact hgenerated

/-- The folder that a move goes to is not `""`. -/
theorem folderFor_ne_empty {i : Interpreter} {command : String} {text : List Char} {r : Reading}
    (hread : i.read command text = .ok r) : i.folderFor r ≠ "" := by
  obtain ⟨threshold, -, rfl⟩ := read_eq_ok_iff.1 hread
  unfold Interpreter.folderFor
  cases hnamed : namedFolder? (trim command.toList) with
  | none => exact defaultFolder_ne_empty _ _ _
  | some name =>
      intro hempty
      exact namedFolder?_ne_nil hnamed (String.ofList_eq_empty_iff.1 hempty)

/-! ## The answers of the branches -/

section Branches

variable {i : Interpreter} {command : Option String} {text : List Char} {r : Reading}
  {files : List Record}

/-- An answer that does nothing is well formed if it has a message for a command with a text. -/
theorem wellFormed_doing_nothing {action : Action} {message : Option String}
    (haction : action = .none ∨ action = .unknown)
    (hmessage : message = none ↔ commandText command = []) :
    Answer.WellFormed command files ⟨files, action, message, none⟩ where
  folder_iff := by rcases haction with rfl | rfl <;> simp
  folder_ne := by simp
  takes := by rcases haction with rfl | rfl <;> simp
  unchanged := fun _ => rfl
  message_iff := hmessage.trans (commandText_eq_nil_iff command)
  move_counts := by rcases haction with rfl | rfl <;> simp
  filter_counts := by rcases haction with rfl | rfl <;> simp
  subperm := List.Subperm.refl files

/-- An answer that lists files, counts them and moves none is well formed. -/
theorem wellFormed_listing {found : List Record} {message : String}
    (htext : commandText command ≠ []) (hfound : found.Subperm files)
    (hmessage : message = s!"Found {found.length} file(s) matching your criteria" ∨
      message = s!"Sorted {found.length} file(s)" ∨
      message = s!"Found {found.length} potential duplicate files") :
    Answer.WellFormed command files ⟨found, .filter, some message, none⟩ where
  folder_iff := by simp
  folder_ne := by simp
  takes := by simp
  unchanged := by simp
  message_iff := by simpa using (commandText_eq_nil_iff command).not.1 htext
  move_counts := by simp
  filter_counts := by simpa using hmessage
  subperm := hfound

theorem wellFormed_move {name : String} (htext : commandText command ≠ [])
    (hread : i.read name text = .ok r) : (i.move r files).WellFormed command files := by
  by_cases hmoved : i.moved r files = []
  · rw [move_eq_of_nil hmoved]
    exact wellFormed_doing_nothing (Or.inl rfl) (by simpa using htext)
  · rw [move_eq_of_ne_nil hmoved]
    exact {
      folder_iff := by simp
      folder_ne := by simpa using folderFor_ne_empty hread
      takes := fun _ => hmoved
      unchanged := by simp
      message_iff := by simpa using (commandText_eq_nil_iff command).not.1 htext
      move_counts := fun _ => ⟨i.folderFor r, rfl, rfl⟩
      filter_counts := by simp
      subperm := (moved_sublist i r files).subperm }

/-- The `response` of each branch is `WellFormed`. -/
theorem wellFormed_response {name : String} (htext : commandText command ≠ [])
    (hread : i.read name text = .ok r) (intent : Intent) :
    (i.response text r files intent).WellFormed command files := by
  cases intent with
  | move => exact wellFormed_move htext hread
  | filter => exact wellFormed_listing htext (Criteria.chosen_subperm _ files) (Or.inl rfl)
  | sort => exact wellFormed_listing htext (ordered_subperm i text r files) (Or.inr (Or.inl rfl))
  | duplicates => exact wellFormed_listing htext (duplicates_subperm files) (Or.inr (Or.inr rfl))

end Branches

/-- Every answer of `process` is `WellFormed`. -/
theorem wellFormed_of_process {i : Interpreter} {command : Option String} {files : List Record}
    {a : Answer} (h : i.process command files = .ok a) : a.WellFormed command files := by
  cases process_eq_ok_iff.1 h with
  | blank hblank => exact wellFormed_doing_nothing (Or.inl rfl) (by simpa using hblank)
  | unknown htext hbranch hsize =>
      exact wellFormed_doing_nothing (Or.inr rfl) (by simpa using htext)
  | branch r intent _ htext hread hbranch hresponse =>
      obtain ⟨-, rfl⟩ := respond_eq_ok_iff.1 hresponse
      exact wellFormed_response htext hread intent

/-! ## Sessions -/

/-- The collections that commands lead to from `start`, each one run on the files of the answer
before it. The interpreter may change between the commands, as its clock does. -/
inductive Reachable (start : List Record) : List Record → Prop where
  | start : Reachable start start
  | step {i : Interpreter} {command : Option String} {files : List Record} {a : Answer} :
      Reachable start files → i.process command files = .ok a → Reachable start a.files

/-- A collection that is `Reachable` holds no file more often than `start`. -/
theorem Reachable.subperm {start files : List Record} (h : Reachable start files) :
    files.Subperm start := by
  induction h with
  | start => exact List.Subperm.refl start
  | step _ hanswer ih =>
      -- what one answer lists is part of the files before it
      exact (wellFormed_of_process hanswer).subperm.trans ih

/-- Wherever a session stands, the next answer is `WellFormed`, and its files are among those of
`start`. -/
theorem Reachable.answer_wellFormed {i : Interpreter} {command : Option String}
    {start files : List Record} {a : Answer} (hfiles : Reachable start files)
    (h : i.process command files = .ok a) :
    a.WellFormed command files ∧ a.files.Subperm start :=
  ⟨wellFormed_of_process h, (hfiles.step h).subperm⟩

/-- The duplicates of the sample, moved to a folder. -/
theorem Reachable.answer_wellFormed_sample :
    Reachable (sample sampleFolder) (duplicates (sample sampleFolder)) ∧
      (Answer.WellFormed (some "Move images to [Copies]") (duplicates (sample sampleFolder))
          ⟨duplicates (sample sampleFolder), .move, some "Moving 2 file(s) to folder 'Copies'",
            some "Copies"⟩ ∧
        (duplicates (sample sampleFolder)).Subperm (sample sampleFolder)) := by
  have hfirst : (Interpreter.ofSettings {} ⟨0, none⟩ none).process (some "Find duplicates")
        (sample sampleFolder) =
      .ok ⟨duplicates (sample sampleFolder), .filter, some "Found 2 potential duplicate files",
        none⟩ := by
    decide +kernel
  have hsecond : (Interpreter.ofSettings {} ⟨0, none⟩ none).process
        (some "Move images to [Copies]") (duplicates (sample sampleFolder)) =
      .ok ⟨duplicates (sample sampleFolder), .move, some "Moving 2 file(s) to folder 'Copies'",
        some "Copies"⟩ := by
    decide +kernel
  have hfiles := Reachable.start.step hfirst
  exact ⟨hfiles, hfiles.answer_wellFormed hsecond⟩

end FileClerk
