import FileClerk.Collection.Basic
import FileClerk.Proofs.Catalogue
import FileClerk.Proofs.Interpreter.Response

/-!
# Named types

A command that names types is about files of those types: what a move, a search or a sort lists has
one of the extensions that the type words cover (`typeWords_constrain`). The selection by types
compares lower-case forms, and the extensions of records and of the catalogue are in normal form, so
the extension itself is among those that are covered.

The words have to cover at least one extension. A word that the settings give without any covers
none, a selection by no extensions takes every record, and so such a word constrains nothing
(`typeWords_without_extensions`).
-/

set_option autoImplicit false

namespace FileClerk

open FileClerk.Text FileClerk.Command FileClerk.Collection

/-- The files of the answer have extensions in `expand r.typeWords`. -/
def Interpreter.KeepsTypes (i : Interpreter) (r : Reading) (a : Answer) : Prop :=
  ∀ record ∈ a.files, record.extension ∈ i.catalogue.expand r.typeWords

/-! ## Selections by type -/

/-- Extensions in normal form agree in lower case only if they are the same. -/
theorem exists_lowered_iff_mem {extensions : List String} {record : Record}
    (hnormal : ∀ x ∈ extensions, normalExtension x = x) (hbuilt : record.Built) :
    (∃ x ∈ extensions, lowered x = lowered record.extension) ↔ record.extension ∈ extensions := by
  have hlowered : ∀ {x : String}, normalExtension x = x → lowered x = x := by
    intro x hx
    rw [← hx, lowered_normalExtension]
  constructor
  · rintro ⟨x, hx, heq⟩
    -- both sides are their own lower-case forms
    rw [hlowered (hnormal x hx), hlowered hbuilt.extension_normal] at heq
    exact heq ▸ hx
  · exact fun hmem => ⟨_, hmem, rfl⟩

/-- A record with `hasType` has one of the extensions, if there are any and all extensions are in
normal form. -/
theorem extension_mem_of_hasType {extensions : List String} {record : Record}
    (hne : extensions ≠ []) (hnormal : ∀ x ∈ extensions, normalExtension x = x)
    (hbuilt : record.Built) (h : hasType extensions record = true) :
    record.extension ∈ extensions :=
  (exists_lowered_iff_mem hnormal hbuilt).1 ((hasType_eq_true_iff.1 h).resolve_left hne)

section Branches

variable {i : Interpreter} {text : List Char} {r : Reading} {files : List Record}

/-- The `typeWords` of a reading are words of the catalogue. -/
theorem typeWords_subset_vocabulary {command : String}
    (hread : i.read command text = .ok r) : ∀ w ∈ r.typeWords, w ∈ i.catalogue.vocabulary := by
  obtain ⟨threshold, -, rfl⟩ := read_eq_ok_iff.1 hread
  intro w hw
  exact (mem_typeWords.1 hw).1

/-- A record that a move takes, or that a search or a sort lists, is of the named types and was
there before. -/
theorem hasType_of_mem_response {intent : Intent} (hintent : intent ≠ .duplicates)
    (haction : (i.response text r files intent).action = .move ∨
      (i.response text r files intent).action = .filter)
    {record : Record} (h : record ∈ (i.response text r files intent).files) :
    record ∈ files ∧ hasType (i.catalogue.expand r.typeWords) record = true := by
  cases intent with
  | move =>
      by_cases hmoved : i.moved r files = []
      · simp [Interpreter.response, move_eq_of_nil hmoved] at haction
      · rw [Interpreter.response, move_eq_of_ne_nil hmoved] at h
        exact mem_withTypes.1 (mem_withSize.1 h).1
  | filter =>
      have hmatching : record ∈ (i.criteria text r).matching files :=
        ((i.criteria text r).latest_subperm _).subset (mem_withName.1 h).1
      have htypes := mem_withTypes.1 (mem_withSize.1 hmatching).1
      rwa [getD_extensions] at htypes
  | sort => exact mem_withTypes.1 (mem_arranged.1 h)
  | duplicates => exact absurd rfl hintent

end Branches

/-! ## Commands that name types -/

/-- What a move, a search or a sort lists has `KeepsTypes`, if `expand r.typeWords` is not empty. -/
theorem typeWords_constrain {settings : InterpreterSettings} {clock : Moment}
    {command : Option String} {files : List Record} {r : Reading} {intent : Intent} {a : Answer}
    (hfiles : ∀ record ∈ files, record.Built)
    (hread : (Interpreter.ofSettings settings clock none).read (command.getD "")
      (commandText command) = .ok r)
    (hcovers : settings.catalogue.expand r.typeWords ≠ [])
    (hbranch : (Interpreter.ofSettings settings clock none).branch? (commandText command) =
      some intent)
    (hintent : intent ≠ .duplicates)
    (hanswer : (Interpreter.ofSettings settings clock none).process command files = .ok a)
    (haction : a.action = .move ∨ a.action = .filter) :
    (Interpreter.ofSettings settings clock none).KeepsTypes r a := by
  intro record hrecord
  cases process_eq_ok_iff.1 hanswer with
  | blank hblank =>
      rcases haction with haction | haction
      · cases haction
      · cases haction
  | unknown htext hbranch' hsize =>
      rcases haction with haction | haction
      · cases haction
      · cases haction
  | branch r' intent' _ htext hread' hbranch' hresponse =>
      -- the text is read in one way and answered by one branch
      obtain rfl : r = r' := Except.ok.inj (hread.symm.trans hread')
      obtain rfl : intent = intent' := Option.some.inj (hbranch.symm.trans hbranch')
      obtain ⟨-, rfl⟩ := respond_eq_ok_iff.1 hresponse
      obtain ⟨hmem, htype⟩ := hasType_of_mem_response hintent haction hrecord
      have hnormal : ∀ x ∈ settings.catalogue.expand r.typeWords, normalExtension x = x :=
        fun x hx => settings.catalogue_inNormalForm.normal_of_mem_expand
          (typeWords_subset_vocabulary hread) hx
      exact extension_mem_of_hasType hcovers hnormal (hfiles record hmem) htype

/-- The images of the sample, moved. -/
theorem typeWords_constrain_sample :
    (Interpreter.ofSettings {} ⟨0, none⟩ none).KeepsTypes
      ⟨["image"], none, some "Pictures", [.move]⟩
      ⟨duplicates (sample sampleFolder), .move, some "Moving 2 file(s) to folder 'Pictures'",
        some "Pictures"⟩ := by
  have hfiles : ∀ record ∈ sample sampleFolder, record.Built := by
    intro record hrecord
    rw [Record.built_iff]
    revert record
    decide +kernel
  exact @typeWords_constrain {} ⟨0, none⟩ (some "Move images to [Pictures]") _ _ .move _ hfiles
    (by decide +kernel) (by decide +kernel) (by decide +kernel) (by decide) (by decide +kernel)
    (Or.inl rfl)

/-- With `note: []` under `extra_types` the word constrains nothing: `Move notes to [Archive]` takes
a file of another type. -/
theorem typeWords_without_extensions :
    ¬ ∀ (value : Value) (settings : InterpreterSettings) (clock : Moment)
        (command : Option String) (files : List Record) (r : Reading) (intent : Intent)
        (a : Answer),
      InterpreterSettings.ofValue value = .ok settings →
      (∀ record ∈ files, record.Built) →
      (Interpreter.ofSettings settings clock none).read (command.getD "")
        (commandText command) = .ok r →
      r.typeWords ≠ [] →
      (Interpreter.ofSettings settings clock none).branch? (commandText command) = some intent →
      intent ≠ .duplicates →
      (Interpreter.ofSettings settings clock none).process command files = .ok a →
      (a.action = .move ∨ a.action = .filter) →
      (Interpreter.ofSettings settings clock none).KeepsTypes r a := by
  intro hall
  have hbuilt : ∀ record ∈ [(⟨"1", "plan.pdf", "pdf", 2048, ⟨0, none⟩, "plan.pdf"⟩ : Record)],
      record.Built := by
    intro record hrecord
    rw [Record.built_iff]
    revert record
    decide +kernel
  have hkeeps := hall (.ofFields [("extra_types", .ofFields [("note", .list [])])])
    { extraTypes := [("note", [])] } ⟨0, none⟩ (some "Move notes to [Archive]")
    [⟨"1", "plan.pdf", "pdf", 2048, ⟨0, none⟩, "plan.pdf"⟩]
    ⟨["note"], none, some "Archive", [.move]⟩ .move
    ⟨[⟨"1", "plan.pdf", "pdf", 2048, ⟨0, none⟩, "plan.pdf"⟩], .move,
      some "Moving 1 file(s) to folder 'Archive'", some "Archive"⟩
    rfl hbuilt (by decide +kernel) (by decide) (by decide +kernel) (by decide) (by decide +kernel)
    (Or.inl rfl)
  exact absurd (hkeeps _ (List.mem_singleton_self _)) (by decide +kernel)

end FileClerk
