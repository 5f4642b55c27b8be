import Mathlib.Data.Set.Finite.Basic
import FileClerk.Proofs.Command.Opener
import FileClerk.Proofs.Interpreter.Preview
import FileClerk.Proofs.Interpreter.TypeWord
import FileClerk.Proofs.Text.LetterCase

/-!
# Extensions in place of type words

A catalogue lets an extension that is none of its words stand for itself (`Catalogue.covered`), so
that a command may name an extension where it would name a type. What a command is about is found by
the words of the catalogue alone, though. An extension that starts with none of them is passed over,
and the command is about files of every type. A word that an extension starts with is taken for the
whole, and the command is about all that the word covers.

`Catalogue.Recognises` says which extensions are found in a command and taken for no more than they
stand for. These are the extensions whose files a command moves and no other ones
(`moves_extension_iff`). Where the words of a catalogue lie apart from those of the command, as the
standard ones do (`standard_apart`), it depends on the words that an extension starts with
(`recognises_iff_of_apart`). Not all of the extensions that a catalogue covers are recognised
(`covered_extension_may_be_missed`).
-/

set_option autoImplicit false

namespace FileClerk

open FileClerk.Text FileClerk.Command FileClerk.Collection

/-! ## Commands for an extension -/

/-- The command `move <e> files to [<folder>]`. -/
def extensionCommand (e folder : String) : String := moveCommand (e ++ " files") folder

/-- What `strip_destination` leaves of that command. -/
def extensionText (e : String) : List Char :=
  ['m', 'o', 'v', 'e'] ++ ' ' :: (lower e.toList ++ ' ' :: ['f', 'i', 'l', 'e', 's']) ++ groupLead

/-- The answer moves files only whose extensions are in `expand [e]`, and it moves nothing if there
are none. -/
structure Interpreter.Heeds (i : Interpreter) (e : String) (files : List Record) (a : Answer) :
    Prop where
  moved : a.action = .move → ∀ record ∈ a.files, record.extension ∈ i.catalogue.expand [e]
  idle : (∀ record ∈ files, record.extension ∉ i.catalogue.expand [e]) → a.action = .none

namespace Catalogue

/-- What `expand` gives for the type words that are read in the command. -/
def found (c : Catalogue) (e : String) : List String :=
  c.expand (typeWords (extensionText e) c.vocabulary)

/-- Some extension is `found`, and `e` stands for those of them that files can have. -/
structure Recognises (c : Catalogue) (e : String) : Prop where
  nonempty : c.found e ≠ []
  within : ∀ x ∈ c.found e, normalExtension (lowered x) = lowered x → lowered x ∈ c.expand [e]

instance (c : Catalogue) (e : String) : Decidable (c.Recognises e) :=
  decidable_of_iff (c.found e ≠ [] ∧
      ∀ x ∈ c.found e, normalExtension (lowered x) = lowered x → lowered x ∈ c.expand [e])
    ⟨fun h => ⟨h.1, h.2⟩, fun h => ⟨h.nonempty, h.within⟩⟩

/-- The words of the catalogue consist of word characters, and none of them starts `move`, `files`
or `to`. -/
structure Apart (c : Catalogue) : Prop where
  wordLike : ∀ w ∈ c.vocabulary, WordLike (lower w.toList)
  own : ∀ w ∈ c.vocabulary, ∀ word ∈ ["move", "files", "to"], ¬ lower w.toList <+: word.toList

end Catalogue

/-! ## What the command says -/

section Texts

variable {e folder : String}

theorem wordLike_lower_of_ascii {word : List Char} (hword : WordLike word)
    (hascii : ∀ c ∈ word, c.toNat < 128) : WordLike (lower word) := by
  rw [lower_of_ascii hascii]
  refine ⟨by simpa using hword.ne_nil, fun d hd => ?_⟩
  obtain ⟨c, hc, rfl⟩ := List.mem_map.1 hd
  exact forall_ascii (P := fun c => isWordChar c = true → isWordChar c.toLower = true)
    (by decide +kernel) (hascii c hc) (hword.classes c hc)

theorem lower_extension_files (e : String) :
    lower (e ++ " files").toList = lower e.toList ++ ' ' :: ['f', 'i', 'l', 'e', 's'] := by
  have hlist : (e ++ " files").toList = e.toList ++ ' ' :: ['f', 'i', 'l', 'e', 's'] := by simp
  have hfiles : lower ['f', 'i', 'l', 'e', 's'] = ['f', 'i', 'l', 'e', 's'] := by decide
  rw [hlist, lower_append_space, hfiles]

/-- The extension makes no size phrase with the word behind it, whatever it is. -/
theorem firstReading?_sizePhrase?_extension (he : WordLike (lower e.toList)) :
    firstReading? sizePhrase? none (lower (e ++ " files").toList) = none := by
  have hread : sizePhrase? none (lower e.toList ++ ' ' :: ['f', 'i', 'l', 'e', 's']) = none :=
    sizePhrase?_append_cons_eq_none he (stopsBefore_cons.2 (by decide)) (by decide)
  rw [lower_extension_files,
    readsWordStarts_sizePhrase?.firstReading?_append_cons (by decide) he hread]
  exact opensWith_sizePhrase?.firstReading?_of_wordLike (by decide)

/-- Nor does it make a folder phrase. -/
theorem firstReading?_folderPhrase_extension (he : WordLike (lower e.toList)) :
    firstReading? folderPhrase none (lower (e ++ " files").toList) = none := by
  have hread : folderPhrase none (lower e.toList ++ ' ' :: ['f', 'i', 'l', 'e', 's']) = none :=
    folderPhrase_append_cons_eq_none he (stopsBefore_cons.2 (by decide)) (by decide)
  rw [lower_extension_files,
    readsWordStarts_folderPhrase.firstReading?_append_cons (by decide) he hread]
  exact opensWith_folderPhrase.firstReading?_of_wordLike (by decide)

/-- Taking the destination out of `extensionCommand e folder` leaves `extensionText e`. -/
theorem stripDestination_extensionCommand (he : WordLike (lower e.toList))
    (hfolder : BracketFree folder.toList) :
    stripDestination true (commandText (some (extensionCommand e folder))) = extensionText e := by
  have hword : BracketFree (lower e.toList) := by
    intro c hc
    rw [← Bool.not_eq_true]
    intro hbracket
    have hclass := he.classes c hc
    rw [isWordChar_of_isBracket hbracket] at hclass
    cases hclass
  have hfront : BracketFree (['m', 'o', 'v', 'e'] ++ ' ' :: lower (e ++ " files").toList) := by
    rw [lower_extension_files]
    exact .append (s := ['m', 'o', 'v', 'e', ' ']) (by decide) (hword.append (by decide))
  have hphrase : firstReading? folderPhrase none
      (['m', 'o', 'v', 'e'] ++ ' ' :: lower (e ++ " files").toList) = none :=
    (readsWordStarts_folderPhrase.firstReading?_append_cons (by decide) (by decide) rfl).trans
      (firstReading?_folderPhrase_extension he)
  rw [extensionCommand, commandText_move,
    stripDestination_append_group hfront hfolder.lower hphrase, lower_extension_files,
    extensionText]

/-- The size phrase of the command is that of the folder. -/
theorem firstReading?_sizePhrase?_extensionCommand (he : WordLike (lower e.toList))
    (folder : String) :
    firstReading? sizePhrase? none (commandText (some (extensionCommand e folder))) =
      firstReading? sizePhrase? none (lower folder.toList) := by
  rw [extensionCommand, firstReading?_sizePhrase?_moveCommand,
    firstReading?_sizePhrase?_extension he, Option.none_or]

/-- A word stands in the command if the extension starts with it, or `move`, `files` or `to` does.
-/
theorem startsWord_extensionText (he : WordLike (lower e.toList)) {word : List Char}
    (hword : WordLike word) :
    StartsWord word (extensionText e) ↔ word <+: lower e.toList ∨
      ∃ own ∈ ["move", "files", "to"], word <+: own.toList := by
  have htext : extensionText e = (['m', 'o', 'v', 'e'] ++ ' ' :: (lower e.toList ++
      ' ' :: (['f', 'i', 'l', 'e', 's'] ++ ' ' :: ['t', 'o']))) ++ [' ', ' '] := by
    simp [extensionText, groupLead]
  rw [htext, startsWord_append_blanks hword _ (by decide),
    startsWord_append_cons hword (by decide), startsWord_append_cons hword (by decide),
    startsWord_append_cons hword (by decide), startsWord_iff_prefix (by decide),
    startsWord_iff_prefix he.classes, startsWord_iff_prefix (by decide),
    startsWord_iff_prefix (by decide)]
  simp only [List.mem_cons, List.not_mem_nil, or_false, exists_eq_or_imp, exists_eq_left]
  exact or_left_comm

end Texts

/-! ## Recognised extensions -/

namespace Catalogue

variable {c : Catalogue} {e : String}

theorem expand_singleton (c : Catalogue) (word : String) : c.expand [word] = c.covered word :=
  List.flatMap_singleton c.covered word

/-- For a catalogue that is `Apart`, `found` is what is covered by the words that the extension
starts with. -/
theorem mem_found_iff (hc : c.Apart) (he : WordLike (lower e.toList)) (x : String) :
    x ∈ c.found e ↔
      ∃ w ∈ c.vocabulary, lower w.toList <+: lower e.toList ∧ x ∈ c.covered w := by
  rw [found, expand, List.mem_flatMap]
  refine exists_congr fun w => ?_
  rw [mem_typeWords, and_assoc]
  refine and_congr_right fun hw => and_congr_left' ?_
  rw [startsWord_extensionText he (hc.wordLike w hw)]
  refine or_iff_left ?_
  rintro ⟨own, hown, hprefix⟩
  exact hc.own w hw own hown hprefix

/-- An extension is recognised if it starts with a word that covers some extension, and with none
that covers an extension for which it does not stand. -/
theorem recognises_iff_of_apart (hc : c.Apart) (he : WordLike (lower e.toList)) :
    c.Recognises e ↔
      (∃ w ∈ c.vocabulary, lower w.toList <+: lower e.toList ∧ c.covered w ≠ []) ∧
        ∀ w ∈ c.vocabulary, lower w.toList <+: lower e.toList → ∀ x ∈ c.covered w,
          normalExtension (lowered x) = lowered x → lowered x ∈ c.covered e := by
  constructor
  · rintro ⟨hnonempty, hwithin⟩
    rw [expand_singleton] at hwithin
    obtain ⟨x, hx⟩ := List.exists_mem_of_ne_nil _ hnonempty
    obtain ⟨w, hw, hprefix, hcovered⟩ := (mem_found_iff hc he x).1 hx
    exact ⟨⟨w, hw, hprefix, List.ne_nil_of_mem hcovered⟩, fun w hw hprefix x hx =>
      hwithin x ((mem_found_iff hc he x).2 ⟨w, hw, hprefix, hx⟩)⟩
  · rintro ⟨⟨w, hw, hprefix, hcovers⟩, hwithin⟩
    obtain ⟨x, hx⟩ := List.exists_mem_of_ne_nil _ hcovers
    refine ⟨List.ne_nil_of_mem ((mem_found_iff hc he x).2 ⟨w, hw, hprefix, hx⟩), fun y hy => ?_⟩
    obtain ⟨v, hv, hprefix', hcovered⟩ := (mem_found_iff hc he y).1 hy
    rw [expand_singleton]
    exact hwithin v hv hprefix' y hcovered

theorem standard_apart : standard.Apart where
  wordLike := by decide +kernel
  own := by decide +kernel

/-- Other extensions of documents start with no word, or with one that covers more. -/
example : (documentExtensions.filter fun e => decide (standard.Recognises e)) =
    ["pdf", "doc", "txt"] := by
  decide +kernel

end Catalogue

/-! ## Moves -/

/-- An extension of one letter that is repeated. -/
def repeatedLetter (n : Nat) : String := String.ofList (List.replicate n 'a')

/-- There are extensions beyond each list of them. -/
theorem exists_extension_notMem (extensions : List String) :
    ∃ x, normalExtension x = x ∧ x ∉ extensions := by
  have hinjective : Function.Injective repeatedLetter := by
    intro m n h
    have hlength := congrArg (fun s => s.toList.length) h
    simpa [repeatedLetter] using hlength
  obtain ⟨_, ⟨n, rfl⟩, hn⟩ :=
    (Set.infinite_range_of_injective hinjective).exists_notMem_finset extensions.toFinset
  refine ⟨repeatedLetter n, ?_, fun hmem => hn (List.mem_toFinset.2 hmem)⟩
  have hlower : lower (List.replicate n 'a') = List.replicate n 'a' :=
    lower_eq_self fun c hc => by
      rw [List.eq_of_mem_replicate hc]
      decide
  simp [repeatedLetter, normalExtension, hlower]

/-- An empty file with an extension. -/
def emptyFile (extension : String) : Record :=
  ⟨"1", "file", extension, 0, ⟨0, none⟩, "file"⟩

section Moves

variable {i : Interpreter} {e folder : String}

/-- The command moves the files of the extensions that it is about, within the size that the folder
names. -/
theorem process_extensionCommand (he : WordLike (lower e.toList))
    (hfolder : BracketFree folder.toList) (hsize : ¬ SizeTooLarge (lower folder.toList)) :
    ∃ r, sizeThreshold (lower folder.toList) = .ok r.threshold ∧
      (∀ files, i.moved r files = withSize r.threshold (withTypes (i.catalogue.found e) files)) ∧
      ∀ files, i.process (some (extensionCommand e folder)) files = .ok (i.move r files) := by
  have hbranch : i.branch? (commandText (some (extensionCommand e folder))) = some .move :=
    branch?_move i (e ++ " files") folder
  obtain ⟨r, hread⟩ : ∃ r, i.read (extensionCommand e folder)
      (commandText (some (extensionCommand e folder))) = .ok r := by
    apply exists_read
    rwa [SizeTooLarge, firstReading?_sizePhrase?_extensionCommand he]
  have hthreshold := threshold_of_read hread
  rw [sizeThreshold, firstReading?_sizePhrase?_extensionCommand he] at hthreshold
  refine ⟨r, hthreshold, fun files => ?_, fun files => process_eq_response hread hbranch
    fun part hpart => by cases hpart⟩
  rw [Interpreter.moved, typeWords_of_read hread, contains_move (callsFor_of_branch? hbranch),
    stripDestination_extensionCommand he hfolder, Catalogue.found]

/-- The move `Heeds` an extension that the catalogue `Recognises`. -/
theorem heeds_move {r : Reading} {files : List Record} (hfiles : ∀ record ∈ files, record.Built)
    (hmoved : i.moved r files = withSize r.threshold (withTypes (i.catalogue.found e) files))
    (h : i.catalogue.Recognises e) : i.Heeds e files (i.move r files) := by
  have hwithin : ∀ record ∈ i.moved r files,
      record ∈ files ∧ record.extension ∈ i.catalogue.expand [e] := by
    intro record hrecord
    rw [hmoved] at hrecord
    obtain ⟨hmem, htype⟩ := mem_withTypes.1 (mem_withSize.1 hrecord).1
    obtain ⟨x, hx, hlowered⟩ := (hasType_eq_true_iff.1 htype).resolve_left h.nonempty
    have hbuilt := hfiles record hmem
    rw [hbuilt.lowered_extension] at hlowered
    have hnormal := h.within x hx
    rw [hlowered] at hnormal
    exact ⟨hmem, hnormal hbuilt.extension_normal⟩
  by_cases hempty : i.moved r files = []
  · rw [move_eq_of_nil hempty]
    exact ⟨fun haction => absurd haction (by simp), fun _ => rfl⟩
  · rw [move_eq_of_ne_nil hempty]
    refine ⟨fun _ record hrecord => (hwithin record hrecord).2, fun hnone => ?_⟩
    obtain ⟨record, hrecord⟩ := List.exists_mem_of_ne_nil _ hempty
    obtain ⟨hmem, hextension⟩ := hwithin record hrecord
    exact absurd hextension (hnone record hmem)

/-- A move that no size limits takes an empty file that it is about, so `e` stands for the extension
of the file if the move heeds `e`. -/
theorem extension_mem_of_heeds {r : Reading} {x : String} (hnone : r.threshold = none)
    (hmoved : i.moved r [emptyFile x] =
      withSize r.threshold (withTypes (i.catalogue.found e) [emptyFile x]))
    (htype : hasType (i.catalogue.found e) (emptyFile x) = true)
    (h : i.Heeds e [emptyFile x] (i.move r [emptyFile x])) : x ∈ i.catalogue.expand [e] := by
  have htypes : withTypes (i.catalogue.found e) [emptyFile x] = [emptyFile x] := by
    apply withTypes_eq_self
    intro record hrecord
    rwa [List.mem_singleton.1 hrecord]
  have htaken : i.moved r [emptyFile x] = [emptyFile x] := by
    rw [hmoved, htypes, hnone]
    rfl
  have hheeds := h.moved
  rw [move_eq_of_ne_nil (by simp [htaken]), htaken] at hheeds
  exact hheeds rfl (emptyFile x) List.mem_cons_self

/-- If a move that no size limits `Heeds` an extension whatever the files are, the catalogue
`Recognises` it. -/
theorem recognises_of_heeds {r : Reading} (hnone : r.threshold = none)
    (hmoved : ∀ files,
      i.moved r files = withSize r.threshold (withTypes (i.catalogue.found e) files))
    (h : ∀ files : List Record, (∀ record ∈ files, record.Built) →
      i.Heeds e files (i.move r files)) : i.catalogue.Recognises e := by
  have hfile : ∀ x, normalExtension x = x → hasType (i.catalogue.found e) (emptyFile x) = true →
      x ∈ i.catalogue.expand [e] := by
    intro x hx htype
    refine extension_mem_of_heeds hnone (hmoved _) htype (h [emptyFile x] fun record hrecord => ?_)
    rw [List.mem_singleton.1 hrecord]
    exact (Record.built_iff (emptyFile x)).2 hx
  refine ⟨fun hempty => ?_, fun x hx hnormal => ?_⟩
  · -- a command about no extension takes every file, also one of a further extension
    obtain ⟨x, hnormal, hx⟩ := exists_extension_notMem (i.catalogue.expand [e])
    exact hx (hfile x hnormal (hasType_eq_true_iff.2 (Or.inl hempty)))
  · exact hfile _ hnormal (hasType_eq_true_iff.2 (Or.inr ⟨x, hx, (lowered_lowered x).symm⟩))

/-- A command for an extension `e` moves files only whose extensions are in `expand [e]`, and none
if there are none, exactly if the catalogue `Recognises` it. -/
theorem moves_extension_iff (i : Interpreter) (he : WordLike e.toList)
    (hascii : ∀ c ∈ e.toList, c.toNat < 128) :
    (∀ (folder : String) (files : List Record), BracketFree folder.toList →
      ¬ SizeTooLarge (lower folder.toList) → (∀ record ∈ files, record.Built) →
      ∃ a, i.process (some (extensionCommand e folder)) files = .ok a ∧ i.Heeds e files a) ↔
    i.catalogue.Recognises e := by
  have hlower := wordLike_lower_of_ascii he hascii
  constructor
  · intro h
    have hfolder : BracketFree "X".toList := by decide
    have hsize : ¬ SizeTooLarge (lower "X".toList) :=
      not_sizeTooLarge_of_shortNumbers (.of_length_lt (by decide))
    obtain ⟨r, hthreshold, hmoved, hprocess⟩ :=
      process_extensionCommand (i := i) hlower hfolder hsize
    have hnone : sizeThreshold (lower "X".toList) = .ok none := by decide
    rw [hnone] at hthreshold
    refine recognises_of_heeds (Except.ok.inj hthreshold).symm hmoved fun files hfiles => ?_
    obtain ⟨a, hanswer, hheeds⟩ := h "X" files hfolder hsize hfiles
    rw [hprocess] at hanswer
    exact Except.ok.inj hanswer ▸ hheeds
  · intro h folder files hfolder hsize hfiles
    obtain ⟨r, -, hmoved, hprocess⟩ := process_extensionCommand (i := i) hlower hfolder hsize
    exact ⟨i.move r files, hprocess files, heeds_move hfiles (hmoved files) h⟩

/-- A document and an image. -/
def mixedFiles : List Record :=
  [⟨"1", "plan.pdf", "pdf", 2048, ⟨0, none⟩, "plan.pdf"⟩,
    ⟨"2", "photo.jpg", "jpg", 4096, ⟨0, none⟩, "photo.jpg"⟩]

/-- The standard catalogue recognises the extension of the document. -/
theorem moves_extension_pdf :
    ∃ a, (Interpreter.ofSettings {} ⟨0, none⟩ none).process (some (extensionCommand "pdf" "X"))
        mixedFiles = .ok a ∧
      (Interpreter.ofSettings {} ⟨0, none⟩ none).Heeds "pdf" mixedFiles a :=
  (moves_extension_iff (Interpreter.ofSettings {} ⟨0, none⟩ none) (e := "pdf") (by decide)
    (by decide)).2 (by decide +kernel) "X" mixedFiles (by decide)
    (not_sizeTooLarge_of_shortNumbers (.of_length_lt (by decide))) (by decide +kernel)

/-- An extension that `_default_expansions` lists may be none that the catalogue `Recognises`: no
key stands in `move rtf files to [X]`, so the command takes the document and the image. -/
theorem covered_extension_may_be_missed :
    ¬ ∀ (i : Interpreter) (e : String) (files : List Record) (a : Answer), WordLike e.toList →
      (∀ c ∈ e.toList, c.toNat < 128) → (∃ entry ∈ i.catalogue.expansions, e ∈ entry.2) →
      (∀ record ∈ files, record.Built) →
      i.process (some (extensionCommand e "X")) files = .ok a → i.Heeds e files a := by
  intro hall
  have hheeds := hall (Interpreter.ofSettings {} ⟨0, none⟩ none) "rtf" mixedFiles
    ⟨mixedFiles, .move, some "Moving 2 file(s) to folder 'X'", some "X"⟩ (by decide) (by decide)
    (by decide +kernel) (by decide +kernel) (by decide +kernel)
  exact absurd (hheeds.moved rfl _ List.mem_cons_self) (by decide +kernel)

end Moves

end FileClerk
