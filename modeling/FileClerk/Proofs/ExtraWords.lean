import FileClerk.Proofs.Catalogue
import FileClerk.Proofs.Collection.Select
import FileClerk.Proofs.Text.LetterCase

/-!
# Further words of a catalogue

Further entries are set one after another. A word that is known keeps its place and gets the new
extensions, and a new word comes last (`vocabulary_withExtra`). So the entries that no further word
falls on stay as they are, where they are (`getElem?_withExtra`), and of several entries for one
word, in whatever letter case, the last one counts (`listed?_withExtra`).

Extensions are put in normal form when a record is built and when an entry is set, and they are
compared in lower case once more. A normal form is its own lower-case form, so the three agree: a
further word selects the records whose extension has the normal form of one of its extensions
(`mem_withTypes_withExtra`).
-/

set_option autoImplicit false

namespace FileClerk.Catalogue

open FileClerk.Text FileClerk.Collection

/-! ## Single entries -/

/-- The catalogue with one further entry, put in normal form as `with_extra` does. -/
def withEntry (c : Catalogue) (entry : String × List String) : Catalogue :=
  { c with
    expansions := setEntry (lowered entry.1) (entry.2.map normalExtension) c.expansions }

/-- After `setEntry word extensions` the word lists `extensions`. -/
theorem lookup_setEntry_self (word : String) (extensions : List String)
    (entries : List (String × List String)) :
    (setEntry word extensions entries).lookup word = some extensions := by
  induction entries with
  | nil => simp [setEntry]
  | cons first rest ih =>
      obtain ⟨known, old⟩ := first
      rw [setEntry]
      split
      · rename_i hsame
        simp [beq_iff_eq.1 hsame]
      · rename_i hother
        have hfirst : (word == known) = false :=
          beq_eq_false_iff_ne.2 fun heq => hother (beq_iff_eq.2 heq.symm)
        rw [List.lookup_cons, hfirst]
        exact ih

/-- Any other word lists what it did. -/
theorem lookup_setEntry_of_ne {word w : String} (h : w ≠ word) (extensions : List String)
    (entries : List (String × List String)) :
    (setEntry word extensions entries).lookup w = entries.lookup w := by
  have hword : (w == word) = false := beq_eq_false_iff_ne.2 h
  induction entries with
  | nil => simp [setEntry, List.lookup_cons, hword]
  | cons first rest ih =>
      obtain ⟨known, old⟩ := first
      rw [setEntry]
      split
      · rename_i hsame
        simp [List.lookup_cons, beq_iff_eq.1 hsame, hword]
      · simp [List.lookup_cons, ih]

/-- An entry of another word stays as it is and where it is. -/
theorem getElem?_setEntry {word : String} {extensions : List String}
    {entries : List (String × List String)} {n : Nat} {entry : String × List String}
    (h : entries[n]? = some entry) (hword : entry.1 ≠ word) :
    (setEntry word extensions entries)[n]? = some entry := by
  induction entries generalizing n with
  | nil => cases h
  | cons first rest ih =>
      rw [setEntry]
      cases n with
      | zero =>
          obtain rfl := Option.some.inj h
          rw [if_neg (by simpa using hword)]
          rfl
      | succ n =>
          split
          · exact h
          · exact ih h

theorem vocabulary_withEntry (c : Catalogue) (entry : String × List String) :
    (c.withEntry entry).vocabulary =
      if lowered entry.1 ∈ c.vocabulary then c.vocabulary
      else c.vocabulary ++ [lowered entry.1] := by
  unfold vocabulary withEntry
  split
  · rename_i hknown
    exact map_fst_setEntry_of_mem _ hknown
  · rename_i hnew
    rw [setEntry_of_notMem _ hnew, List.map_append]
    rfl

/-! ## Lists of entries -/

section Extra

variable (c : Catalogue)

/-- Entries are set one after another. -/
theorem withExtra_cons (entry : String × List String) (extra : List (String × List String)) :
    c.withExtra (entry :: extra) = (c.withEntry entry).withExtra extra := rfl

/-- Entries that are added in two turns are added as one list. -/
theorem withExtra_append (extra more : List (String × List String)) :
    c.withExtra (extra ++ more) = (c.withExtra extra).withExtra more := by
  induction extra generalizing c with
  | nil => rfl
  | cons entry rest ih => rw [List.cons_append, withExtra_cons, withExtra_cons, ih]

/-- The words, in lower case, that the entries of `extra` fall on. -/
def setWords (extra : List (String × List String)) : List String :=
  extra.map fun entry => lowered entry.1

/-- Those of `setWords` that `c` does not know, in the order in which they come up first. -/
def newWords (extra : List (String × List String)) : List String :=
  ((setWords extra).filter fun w => decide (w ∉ c.vocabulary)).eraseDups

/-- Known words keep their places in `withExtra`, and `newWords` follow in order. -/
theorem vocabulary_withExtra (extra : List (String × List String)) :
    (c.withExtra extra).vocabulary = c.vocabulary ++ c.newWords extra := by
  induction extra generalizing c with
  | nil => exact (List.append_nil _).symm
  | cons entry rest ih =>
      rw [withExtra_cons, ih, newWords, newWords, setWords, setWords, List.map_cons,
        vocabulary_withEntry]
      split
      · rename_i hknown
        rw [List.filter_cons_of_neg (by simpa using hknown)]
      · rename_i hnew
        -- the word is known to the entries behind it
        rw [List.filter_cons_of_pos (by simpa using hnew), List.eraseDups_cons,
          List.filter_filter, List.append_assoc, List.singleton_append]
        congr 4
        funext w
        rw [Bool.eq_iff_iff]
        simp [not_or, and_comm]

/-- An entry that no further one falls on stays as it is and where it is. -/
theorem getElem?_withExtra {extra : List (String × List String)} {n : Nat}
    {entry : String × List String} (h : c.expansions[n]? = some entry)
    (hword : entry.1 ∉ setWords extra) : (c.withExtra extra).expansions[n]? = some entry := by
  induction extra generalizing c with
  | nil => exact h
  | cons first rest ih =>
      rw [setWords, List.map_cons, List.mem_cons, not_or] at hword
      rw [withExtra_cons]
      exact ih (c.withEntry first) (getElem?_setEntry h hword.1) hword.2

/-- A word that no further entry falls on lists what it did. -/
theorem listed?_withExtra_of_notMem {extra : List (String × List String)} {word : String}
    (h : word ∉ setWords extra) : (c.withExtra extra).listed? word = c.listed? word := by
  induction extra generalizing c with
  | nil => rfl
  | cons first rest ih =>
      rw [setWords, List.map_cons, List.mem_cons, not_or] at h
      rw [withExtra_cons, ih (c.withEntry first) h.2, listed?, listed?, withEntry,
        lookup_setEntry_of_ne h.1]

/-- Of the entries of `extra` that fall on a word the last one counts. -/
theorem listed?_withExtra {front back : List (String × List String)} {word : String}
    {extensions : List String} (hlast : lowered word ∉ setWords back) :
    (c.withExtra (front ++ (word, extensions) :: back)).listed? (lowered word) =
      some (extensions.map normalExtension) := by
  rw [withExtra_append, withExtra_cons, listed?_withExtra_of_notMem _ hlast, listed?, withEntry,
    lookup_setEntry_self]

end Extra

/-! ## Covered extensions -/

section Covered

variable (c : Catalogue)

/-- What `expand` gives for two lists of words together is what it gives for each. -/
theorem mem_expand_append {words more : List String} {x : String} :
    x ∈ c.expand (words ++ more) ↔ x ∈ c.expand words ∨ x ∈ c.expand more := by
  rw [expand, List.flatMap_append, List.mem_append]
  rfl

/-- A word counts by `lowered word`, as in `expand`. -/
theorem covered_lowered (word : String) : c.covered (lowered word) = c.covered word := by
  rw [covered, covered, lowered_lowered]

/-- Words count as a set of lower-case forms. -/
theorem mem_expand_congr_lowered {words words' : List String}
    (h : ∀ w, w ∈ words.map lowered ↔ w ∈ words'.map lowered) (x : String) :
    x ∈ c.expand words ↔ x ∈ c.expand words' := by
  have hlower : ∀ ws : List String, c.expand (ws.map lowered) = c.expand ws := by
    intro ws
    rw [expand, expand, List.flatMap_map]
    exact congrArg ws.flatMap (funext c.covered_lowered)
  rw [← hlower words, ← hlower words']
  exact c.mem_expand_congr h x

/-- Words that differ in the case of ASCII letters have one `expand`. -/
theorem expand_congr_toLower {words words' : List String}
    (h : List.Forall₂ (fun w w' => w.toList.map Char.toLower = w'.toList.map Char.toLower)
      words words') : c.expand words = c.expand words' := by
  induction h with
  | nil => rfl
  | @cons w w' rest rest' hword _ ih =>
      have hlower : lowered w = lowered w' := by
        rw [lowered, lowered, ← lower_map_toLower w.toList, hword, lower_map_toLower]
      rw [expand, expand, List.flatMap_cons, List.flatMap_cons, covered, covered, hlower]
      exact congrArg _ ih

/-- A further word selects the built records whose extension has the normal form of one of its
extensions. -/
theorem mem_withTypes_withExtra {front back : List (String × List String)} {word : String}
    {extensions : List String} (hlast : lowered word ∉ setWords back) (hne : extensions ≠ [])
    {files : List Record} {r : Record} {id name extension path : String} {size : Int}
    {modified : Moment} (hbuilt : Record.make id name extension size modified path = .ok r) :
    r ∈ withTypes ((c.withExtra (front ++ (word, extensions) :: back)).expand [word]) files ↔
      r ∈ files ∧ ∃ x ∈ extensions, normalExtension x = normalExtension extension := by
  have hextension : r.extension = normalExtension extension := by
    unfold Record.make at hbuilt
    split at hbuilt
    · cases hbuilt
    · cases hbuilt
      rfl
  have hcovered : (c.withExtra (front ++ (word, extensions) :: back)).expand [word] =
      extensions.map normalExtension := by
    rw [expand, List.flatMap_singleton, covered, listed?_withExtra c hlast]
    rfl
  rw [mem_withTypes, hcovered, hasType_eq_true_iff, List.map_eq_nil_iff, hextension,
    lowered_normalExtension, or_iff_right hne]
  simp only [List.mem_map, exists_exists_and_eq_and, lowered_normalExtension]

end Covered

/-! ## The extension of a catalogue -/

/-- What is to be expected of `c.withExtra extra`, of a second `withExtra more`, and of `expand` in
the result. -/
structure ExtendsConsistently (c : Catalogue) (extra more : List (String × List String)) :
    Prop where
  in_turn : (c.withExtra extra).withExtra more = c.withExtra (extra ++ more)
  vocabulary_eq : (c.withExtra extra).vocabulary = c.vocabulary ++ c.newWords extra
  /-- An entry keeps its extensions and its place unless a further word falls on it. -/
  keeps : ∀ (n : Nat) (entry : String × List String), c.expansions[n]? = some entry →
    entry.1 ∉ setWords extra → (c.withExtra extra).expansions[n]? = some entry
  folders_eq : (c.withExtra extra).folders = c.folders
  version_eq : (c.withExtra extra).version = c.version
  covers_append : ∀ (words words' : List String) (x : String),
    x ∈ c.expand (words ++ words') ↔ x ∈ c.expand words ∨ x ∈ c.expand words'
  /-- Order and repetition of words do not count, and a word counts by its lower-case form. -/
  covers_congr : ∀ words words' : List String,
    (∀ w, w ∈ words.map lowered ↔ w ∈ words'.map lowered) →
      ∀ x, x ∈ c.expand words ↔ x ∈ c.expand words'
  covers_case : ∀ words words' : List String,
    List.Forall₂ (fun w w' => w.toList.map Char.toLower = w'.toList.map Char.toLower)
      words words' → c.expand words = c.expand words'
  /-- The last entry for a word selects by its extensions. -/
  selects : ∀ (front back : List (String × List String)) (word : String)
    (extensions : List String), extra = front ++ (word, extensions) :: back →
    (∀ entry ∈ back, lowered entry.1 ≠ lowered word) → extensions ≠ [] →
    ∀ (files : List Record) (r : Record) (id name extension : String) (size : Int)
      (modified : Moment) (path : String),
      Record.make id name extension size modified path = .ok r →
      (r ∈ withTypes ((c.withExtra extra).expand [word]) files ↔
        r ∈ files ∧ ∃ x ∈ extensions, normalExtension x = normalExtension extension)

/-- Every catalogue has `ExtendsConsistently`, in whatever letter case the further words are given.
-/
theorem extendsConsistently (c : Catalogue) (extra more : List (String × List String)) :
    ExtendsConsistently c extra more where
  in_turn := (withExtra_append c extra more).symm
  vocabulary_eq := vocabulary_withExtra c extra
  keeps := fun _ _ h hword => getElem?_withExtra c h hword
  folders_eq := rfl
  version_eq := rfl
  covers_append := fun _ _ _ => mem_expand_append c
  covers_congr := fun _ _ h => mem_expand_congr_lowered c h
  covers_case := fun _ _ h => expand_congr_toLower c h
  selects := by
    rintro front back word extensions rfl hlast hne files r id name extension size modified path
      hbuilt
    refine mem_withTypes_withExtra c ?_ hne hbuilt
    intro hmem
    obtain ⟨entry, hentry, hword⟩ := List.mem_map.1 hmem
    exact hlast entry hentry hword

/-- Two entries fall on one word in different letter cases, and the last one counts. -/
theorem extendsConsistently_sample :
    ExtendsConsistently standard [("Raw", ["NEF"]), ("RAW", [".CR2", "..Arw"])] [("pdf", [])] ∧
      Record.make "1" "a.arw" ".ARW" 1 ⟨0, none⟩ "a.arw" =
        .ok ⟨"1", "a.arw", "arw", 1, ⟨0, none⟩, "a.arw"⟩ ∧
      (⟨"1", "a.arw", "arw", 1, ⟨0, none⟩, "a.arw"⟩ : Record) ∈
        withTypes ((standard.withExtra [("Raw", ["NEF"]), ("RAW", [".CR2", "..Arw"])]).expand
          ["RAW"]) [⟨"1", "a.arw", "arw", 1, ⟨0, none⟩, "a.arw"⟩] := by
  have hextends :=
    extendsConsistently standard [("Raw", ["NEF"]), ("RAW", [".CR2", "..Arw"])] [("pdf", [])]
  have hbuilt : Record.make "1" "a.arw" ".ARW" 1 ⟨0, none⟩ "a.arw" =
      .ok ⟨"1", "a.arw", "arw", 1, ⟨0, none⟩, "a.arw"⟩ := by
    have hnormal : normalExtension ".ARW" = "arw" := by decide +kernel
    simp [Record.make, hnormal]
  have hselects := hextends.selects [("Raw", ["NEF"])] [] "RAW" [".CR2", "..Arw"] rfl (by simp)
    (by simp) [⟨"1", "a.arw", "arw", 1, ⟨0, none⟩, "a.arw"⟩] _ _ _ _ _ _ _ hbuilt
  refine ⟨hextends, hbuilt, hselects.2 ⟨List.mem_cons_self, "..Arw", by simp, ?_⟩⟩
  decide +kernel

end FileClerk.Catalogue
