import FileClerk.Proofs.Lookup
import FileClerk.Proofs.Text.Lower
import FileClerk.Settings.Interpreter

/-!
# Catalogues and records in normal form

A catalogue is in normal form when its words are in lower case and its extensions are in normal
form. The standard catalogue is, and further words keep it so whatever they are given as, so every
catalogue that settings lead to is in normal form (`InterpreterSettings.catalogue_inNormalForm`).
Records that are built have extensions in normal form as well (`Record.Built.extension_normal`). The
extensions that known words cover and the extensions of records can therefore be compared as they
are.
-/

set_option autoImplicit false

namespace FileClerk

open FileClerk.Text

/-! ## Catalogues -/

namespace Catalogue

/-- Every word `w` of `c.expansions` has `lowered w = w`, and every extension `x` has
`normalExtension x = x`. -/
structure InNormalForm (c : Catalogue) : Prop where
  word : ∀ entry ∈ c.expansions, lowered entry.1 = entry.1
  extension : ∀ entry ∈ c.expansions, ∀ x ∈ entry.2, normalExtension x = x

/-- The function `Catalogue.expand` uses its words as a set. -/
theorem mem_expand_congr (c : Catalogue) {words words' : List String}
    (h : ∀ w, w ∈ words ↔ w ∈ words') (x : String) : x ∈ c.expand words ↔ x ∈ c.expand words' := by
  rw [expand, expand, List.mem_flatMap, List.mem_flatMap]
  exact exists_congr fun w => and_congr_left' (h w)

theorem standard_inNormalForm : standard.InNormalForm where
  word := by decide +kernel
  extension := by decide +kernel

/-- Setting an entry brings in no other one. -/
theorem mem_setEntry {word : String} {extensions : List String}
    {entries : List (String × List String)} {entry : String × List String}
    (h : entry ∈ setEntry word extensions entries) :
    entry = (word, extensions) ∨ entry ∈ entries := by
  induction entries with
  | nil => exact Or.inl (List.mem_singleton.1 h)
  | cons first rest ih =>
      rw [setEntry] at h
      split at h
      · rename_i hsame
        rcases List.mem_cons.1 h with rfl | hrest
        · rw [beq_iff_eq.1 hsame]
          exact Or.inl rfl
        · exact Or.inr (List.mem_cons_of_mem _ hrest)
      · rcases List.mem_cons.1 h with rfl | hrest
        · exact Or.inr List.mem_cons_self
        · rcases ih hrest with heq | hmem
          · exact Or.inl heq
          · exact Or.inr (List.mem_cons_of_mem _ hmem)

/-- The function `setEntry` appends the entry of a new word. -/
theorem setEntry_of_notMem {word : String} (extensions : List String)
    {entries : List (String × List String)} (h : word ∉ entries.map (·.1)) :
    setEntry word extensions entries = entries ++ [(word, extensions)] := by
  induction entries with
  | nil => rfl
  | cons first rest ih =>
      rw [List.map_cons, List.mem_cons, not_or] at h
      have hfirst : (first.1 == word) = false := beq_eq_false_iff_ne.2 fun heq => h.1 heq.symm
      simp [setEntry, hfirst, ih h.2]

/-- The function `setEntry` leaves a known word in its place. -/
theorem map_fst_setEntry_of_mem {word : String} (extensions : List String)
    {entries : List (String × List String)} (h : word ∈ entries.map (·.1)) :
    (setEntry word extensions entries).map (·.1) = entries.map (·.1) := by
  induction entries with
  | nil => cases h
  | cons first rest ih =>
      rw [setEntry]
      split
      · rfl
      · rename_i hfirst
        rcases List.mem_cons.1 h with rfl | hrest
        · exact absurd (beq_self_eq_true _) hfirst
        · rw [List.map_cons, List.map_cons, ih hrest]

/-- The words are those that were there and the one that is set. -/
theorem mem_map_fst_setEntry {word w : String} (extensions : List String)
    {entries : List (String × List String)} :
    w ∈ (setEntry word extensions entries).map (·.1) ↔ w = word ∨ w ∈ entries.map (·.1) := by
  by_cases hmem : word ∈ entries.map (·.1)
  · rw [map_fst_setEntry_of_mem extensions hmem]
    constructor
    · exact Or.inr
    · rintro (rfl | hw)
      · exact hmem
      · exact hw
  · rw [setEntry_of_notMem extensions hmem, List.map_append, List.mem_append, or_comm]
    simp

/-- The function `setEntry` keeps the words distinct. -/
theorem nodup_setEntry (word : String) (extensions : List String)
    {entries : List (String × List String)} (h : (entries.map (·.1)).Nodup) :
    ((setEntry word extensions entries).map (·.1)).Nodup := by
  by_cases hmem : word ∈ entries.map (·.1)
  · rw [map_fst_setEntry_of_mem extensions hmem]
    exact h
  · rw [setEntry_of_notMem extensions hmem, List.map_append]
    exact List.nodup_append.2 ⟨h, by simp, by
      rintro other hother _ hword rfl
      obtain rfl := List.mem_singleton.1 hword
      exact hmem hother⟩

/-- An entry that is put in normal form keeps the catalogue so. -/
theorem InNormalForm.setEntry {c : Catalogue} (h : c.InNormalForm) (word : String)
    (extensions : List String) :
    InNormalForm ⟨Catalogue.setEntry (lowered word) (extensions.map normalExtension) c.expansions,
      c.folders, c.version⟩ where
  word := by
    intro entry hentry
    rcases mem_setEntry hentry with rfl | hmem
    · exact lowered_lowered word
    · exact h.word entry hmem
  extension := by
    intro entry hentry x hx
    rcases mem_setEntry hentry with rfl | hmem
    · obtain ⟨y, -, rfl⟩ := List.mem_map.1 hx
      exact normalExtension_normalExtension y
    · exact h.extension entry hmem x hx

/-- The `extra_types` of the settings keep a catalogue in normal form. -/
theorem InNormalForm.withExtra {c : Catalogue} (h : c.InNormalForm)
    (extra : List (String × List String)) : (c.withExtra extra).InNormalForm := by
  unfold Catalogue.withExtra
  -- the words are set one after another
  induction extra generalizing c with
  | nil => exact h
  | cons first rest ih => exact ih (h.setEntry first.1 first.2)

/-- A word of a catalogue in normal form covers the extensions of an entry. -/
theorem InNormalForm.covered_mem {c : Catalogue} (h : c.InNormalForm) {word : String}
    (hword : word ∈ c.vocabulary) : ∃ entry ∈ c.expansions, c.covered word = entry.2 := by
  obtain ⟨entry, hentry, rfl⟩ := List.mem_map.1 hword
  rw [covered, h.word entry hentry, listed?]
  cases hfound : c.expansions.lookup entry.1 with
  | none =>
      have habsent := List.lookup_eq_none_iff.1 hfound entry hentry
      simp at habsent
  | some extensions =>
      exact ⟨(entry.1, extensions), mem_of_lookup hfound, rfl⟩

/-- What known words cover is in normal form. -/
theorem InNormalForm.normal_of_mem_expand {c : Catalogue} (h : c.InNormalForm)
    {words : List String} (hwords : ∀ w ∈ words, w ∈ c.vocabulary) {x : String}
    (hx : x ∈ c.expand words) : normalExtension x = x := by
  obtain ⟨word, hword, hcovered⟩ := List.mem_flatMap.1 hx
  obtain ⟨entry, hentry, heq⟩ := h.covered_mem (hwords word hword)
  exact h.extension entry hentry x (heq ▸ hcovered)

end Catalogue

/-- The catalogue `InterpreterSettings.catalogue` is in normal form, whatever `extra_types` holds.
-/
theorem InterpreterSettings.catalogue_inNormalForm (s : InterpreterSettings) :
    s.catalogue.InNormalForm := by
  unfold InterpreterSettings.catalogue
  split
  · exact Catalogue.standard_inNormalForm
  · exact Catalogue.standard_inNormalForm.withExtra s.extraTypes

/-! ## Records -/

/-- The function `Record.make` gives the record for some description. -/
def Record.Built (r : Record) : Prop :=
  ∃ id name extension size modified path,
    Record.make id name extension size modified path = .ok r

/-- The extension of a built record is a fixed point of `normalExtension`. -/
theorem Record.Built.extension_normal {r : Record} (h : r.Built) :
    normalExtension r.extension = r.extension := by
  obtain ⟨id, name, extension, size, modified, path, hmake⟩ := h
  unfold Record.make at hmake
  split at hmake
  · cases hmake
  · cases hmake
    exact normalExtension_normalExtension extension

/-- So it is in lower case. -/
theorem Record.Built.lowered_extension {r : Record} (h : r.Built) :
    lowered r.extension = r.extension := by
  rw [← h.extension_normal, lowered_normalExtension]

/-- A record is built exactly if `normalExtension` fixes its extension: it is then read back from
its own description. -/
theorem Record.built_iff (r : Record) : r.Built ↔ normalExtension r.extension = r.extension := by
  refine ⟨Record.Built.extension_normal, fun h => ?_⟩
  refine ⟨r.id, r.name, r.extension, r.size, r.modified, r.path, ?_⟩
  simp [Record.make, h]

instance (r : Record) : Decidable r.Built := decidable_of_iff _ (Record.built_iff r).symm

end FileClerk
