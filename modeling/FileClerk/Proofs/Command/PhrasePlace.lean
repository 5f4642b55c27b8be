import FileClerk.Proofs.Command.Strip
import FileClerk.Proofs.Text.CaseClass

/-!
# Where folder phrases stand

A folder phrase is read by what its characters are taken for: blanks, word characters and the
letters of its fixed words. If characters are replaced by others that are taken for the same
(`KeepsReading`), the phrases stay in their places, and the words of a name are the replaced ones
(`folderPhrase_map`). So two texts that are taken for the same have phrases of as many characters at
the same places (`folderPhrase_length_eq`).
-/

set_option autoImplicit false

namespace FileClerk.Command

open FileClerk.Text

/-! ## Replaced characters -/

theorem letters_folderNouns : ∀ w ∈ folderNouns, PlainLetters w.toList := by
  decide

theorem letters_articles : ∀ w ∈ articles, PlainLetters w.toList := by
  decide

theorem letters_placeholder : PlainLetters placeholder := by
  decide

/-- The function `f` replaces characters by others that `folderPhrase` takes for the same: blanks by
blanks, word characters by word characters, and letters by letters with the same `foldLetter`. -/
structure KeepsReading (f : Char → Char) : Prop where
  isBlank_eq : ∀ c, isBlank (f c) = isBlank c
  isWordChar_eq : ∀ c, isWordChar (f c) = isWordChar c
  foldLetter_eq_iff : ∀ c w, 'a' ≤ w ∧ w ≤ 'z' → (foldLetter (f c) = w ↔ foldLetter c = w)

theorem keepsReading_toLower : KeepsReading Char.toLower where
  isBlank_eq := isBlank_toLower
  isWordChar_eq := isWordChar_toLower
  foldLetter_eq_iff := fun c w _ => by rw [foldLetter_toLower]

theorem keepsReading_readAs : KeepsReading readAs := by
  have hcases : ∀ c, isBlank (readAs c) = isBlank c ∧ isWordChar (readAs c) = isWordChar c ∧
      ∀ w, 'a' ≤ w ∧ w ≤ 'z' → (foldLetter (readAs c) = w ↔ foldLetter c = w) := by
    intro c
    -- neither the character nor the one that stands for it is a letter
    have hother : ∀ {d : Char}, ¬ IsLetter c → ¬ IsLetter d → ∀ w, 'a' ≤ w ∧ w ≤ 'z' →
        (foldLetter d = w ↔ foldLetter c = w) := by
      intro d hc hd w hw
      refine iff_of_false ?_ ?_
      · rintro rfl
        exact hd hw
      · rintro rfl
        exact hc hw
    unfold readAs
    split
    · rename_i hblank
      rw [hblank, (classes_of_isBlank hblank).1]
      exact ⟨by decide, by decide, hother (not_isLetter_of_isBlank hblank) (by decide)⟩
    · rename_i hblank
      rw [Bool.not_eq_true] at hblank
      split
      · rename_i hletter
        obtain ⟨hblank', hword, hfold⟩ := classes_of_small hletter
        rw [hblank, hletter.classes.1, hfold]
        exact ⟨hblank', hword, fun w _ => Iff.rfl⟩
      · rename_i hletter
        rw [hblank]
        split
        · rename_i hword
          rw [hword]
          exact ⟨by decide, by decide, hother hletter (by decide)⟩
        · rename_i hword
          rw [Bool.not_eq_true] at hword
          rw [hword]
          exact ⟨by decide, by decide, hother hletter (by decide)⟩
  exact ⟨fun c => (hcases c).1, fun c => (hcases c).2.1, fun c => (hcases c).2.2⟩

/-- The words of a run with other characters, and each text behind a word changed as a whole. -/
def mapRun (f : Char → Char) (g : List Char → List Char) (run : List (List Char × List Char)) :
    List (List Char × List Char) :=
  run.map (Prod.map (List.map f) g)

/-- The words of a name with other characters, and the text behind the phrase changed as a whole. -/
def mapFound (f : Char → Char) (g : List Char → List Char) :
    List (List Char) × List Char → List (List Char) × List Char :=
  Prod.map (List.map (List.map f)) g

namespace KeepsReading

variable {f : Char → Char}

/-! ## Words -/

theorem spells_map (h : KeepsReading f) {word : List Char} (hword : PlainLetters word)
    (s : List Char) : spells word (s.map f) = spells word s := by
  rw [Bool.eq_iff_iff, spells, spells, beq_iff_eq, beq_iff_eq]
  induction s generalizing word with
  | nil => rfl
  | cons c rest ih =>
      cases word with
      | nil => simp
      | cons w word =>
          obtain ⟨hw, hword⟩ := List.forall_mem_cons.1 hword
          simp only [List.map_cons, List.cons.injEq, ih hword, h.foldLetter_eq_iff c w hw]

theorem afterLetters_map (h : KeepsReading f) {word : List Char} (hword : PlainLetters word)
    (s : List Char) : afterLetters word (s.map f) = (afterLetters word s).map (List.map f) := by
  induction word generalizing s with
  | nil => rfl
  | cons w word ih =>
      cases s with
      | nil => rfl
      | cons c s =>
          obtain ⟨hw, hword⟩ := List.forall_mem_cons.1 hword
          simp only [List.map_cons, afterLetters, beq_iff_eq, h.foldLetter_eq_iff c w hw, ih hword]
          split
          · rfl
          · rfl

theorem isOneOf_map (h : KeepsReading f) {words : List String}
    (hwords : ∀ w ∈ words, PlainLetters w.toList) (word : List Char) :
    isOneOf words (word.map f) = isOneOf words word := by
  rw [isOneOf, isOneOf, Bool.eq_iff_iff, List.any_eq_true, List.any_eq_true]
  exact exists_congr fun w => and_congr_right fun hw => by rw [h.spells_map (hwords w hw)]

theorem wordRun_map (h : KeepsReading f) (count : Nat) (s : List Char) :
    wordRun count (s.map f) = mapRun f (List.map f) (wordRun count s) := by
  induction count generalizing s with
  | zero => rfl
  | succ count ih =>
      simp only [wordRun, takeWhile_map_of_forall h.isWordChar_eq,
        dropWhile_map_of_forall h.isWordChar_eq, dropWhile_map_of_forall h.isBlank_eq, ih,
        List.isEmpty_map]
      split
      · rfl
      · rfl

/-! ## Names -/

theorem nameBeforeNoun?_map (h : KeepsReading f) (g : List Char → List Char)
    (run : List (List Char × List Char)) :
    nameBeforeNoun? (mapRun f g run) = (nameBeforeNoun? run).map (mapFound f g) := by
  match run with
  | [] => rfl
  | [_] => rfl
  | [first, (second, rest)] =>
      simp only [mapRun, List.map_cons, List.map_nil, Prod.map_apply, nameBeforeNoun?,
        h.isOneOf_map letters_folderNouns]
      split
      · rfl
      · rfl
  | first :: (second, rest) :: (third, rest') :: more =>
      simp only [mapRun, List.map_cons, Prod.map_apply, nameBeforeNoun?,
        h.isOneOf_map letters_folderNouns]
      split
      · rfl
      · split
        · rfl
        · rfl

theorem nameAfterNew?_map (h : KeepsReading f) (g : List Char → List Char)
    (run : List (List Char × List Char)) :
    nameAfterNew? (mapRun f g run) = (nameAfterNew? run).map (mapFound f g) := by
  cases run with
  | nil => rfl
  | cons first more =>
      calc nameAfterNew? (mapRun f g (first :: more))
          = (if spells placeholder (first.1.map f) then nameBeforeNoun? (mapRun f g more)
              else none).or (nameBeforeNoun? (mapRun f g (first :: more))) := rfl
        _ = (nameAfterNew? (first :: more)).map (mapFound f g) := by
            rw [h.spells_map letters_placeholder, h.nameBeforeNoun?_map, h.nameBeforeNoun?_map,
              nameAfterNew?, Option.map_or]
            split
            · rfl
            · rfl

theorem nameAfterArticle?_map (h : KeepsReading f) (g : List Char → List Char)
    (run : List (List Char × List Char)) :
    nameAfterArticle? (mapRun f g run) = (nameAfterArticle? run).map (mapFound f g) := by
  cases run with
  | nil => rfl
  | cons first more =>
      calc nameAfterArticle? (mapRun f g (first :: more))
          = (if isOneOf articles (first.1.map f) then nameAfterNew? (mapRun f g more)
              else none).or (nameAfterNew? (mapRun f g (first :: more))) := rfl
        _ = (nameAfterArticle? (first :: more)).map (mapFound f g) := by
            rw [h.isOneOf_map letters_articles, h.nameAfterNew?_map, h.nameAfterNew?_map,
              nameAfterArticle?, Option.map_or]
            split
            · rfl
            · rfl

/-! ## Phrases -/

theorem any_map (h : KeepsReading f) (before : Option Char) :
    (before.map f).any isWordChar = before.any isWordChar := by
  cases before with
  | none => rfl
  | some c => exact h.isWordChar_eq c

theorem afterWord?_map (h : KeepsReading f) (s : List Char) {preposition : String}
    (hletters : PlainLetters preposition.toList) :
    afterWord? (s.map f) preposition = (afterWord? s preposition).map (List.map f) := by
  rw [afterWord?, afterWord?, h.afterLetters_map hletters]
  cases afterLetters preposition.toList s with
  | none => rfl
  | some rest =>
      simp only [Option.map_some, any_head?_map_of_forall h.isBlank_eq,
        dropWhile_map_of_forall h.isBlank_eq]
      split
      · rfl
      · rfl

theorem afterPreposition?_map (h : KeepsReading f) (s : List Char) :
    afterPreposition? (s.map f) = (afterPreposition? s).map (List.map f) := by
  have hwords : ∀ words : List String, (∀ w ∈ words, PlainLetters w.toList) →
      words.findSome? (afterWord? (s.map f)) =
        (words.findSome? (afterWord? s)).map (List.map f) := by
    intro words hletters
    induction words with
    | nil => rfl
    | cons w words ih =>
        obtain ⟨hw, hrest⟩ := List.forall_mem_cons.1 hletters
        rw [List.findSome?_cons, List.findSome?_cons, h.afterWord?_map s hw, ih hrest]
        cases afterWord? s w with
        | none => rfl
        | some rest => rfl
  rw [afterPreposition?_eq, afterPreposition?_eq, hwords prepositions letters_prepositions]

/-- The reader `folderPhrase` commutes with `f`: the phrase has as many characters, and the words of
the name are replaced. -/
theorem folderPhrase_map (h : KeepsReading f) (before : Option Char) (s : List Char) :
    folderPhrase (before.map f) (s.map f) =
      (folderPhrase before s).map (Prod.map (List.map (List.map f)) id) := by
  simp only [folderPhrase, h.any_map, h.afterPreposition?_map, List.length_map]
  split
  · rfl
  · cases afterPreposition? s with
    | none => rfl
    | some rest =>
        simp only [Option.map_some, Option.bind_eq_bind, Option.bind_some, h.wordRun_map,
          h.nameAfterArticle?_map]
        cases nameAfterArticle? (wordRun 5 rest) with
        | none => rfl
        | some found => simp [mapFound]

end KeepsReading

/-- Texts with the same `map readAs` have phrases of as many characters at the same places. -/
theorem folderPhrase_length_eq {before before' : Option Char} {s t : List Char}
    (hbefore : before.map readAs = before'.map readAs) (h : s.map readAs = t.map readAs) :
    (folderPhrase before s).map Prod.snd = (folderPhrase before' t).map Prod.snd := by
  have hlength : ∀ (before : Option Char) (s : List Char),
      (folderPhrase (before.map readAs) (s.map readAs)).map Prod.snd =
        (folderPhrase before s).map Prod.snd := by
    intro before s
    rw [keepsReading_readAs.folderPhrase_map, Option.map_map]
    rfl
  rw [← hlength, ← hlength before', hbefore, h]

end FileClerk.Command
