import Mathlib.Data.List.Chain
import FileClerk.Proofs.Command.Destination
import FileClerk.Proofs.Command.FolderPhrase
import FileClerk.Proofs.Command.Spaced
import FileClerk.Proofs.Text.CaseClass

/-!
# The name that a phrase gives

The folder of a phrase is the name in sentence case. A command in which no preposition stands before
a phrase names the folder of that phrase (`phraseFolder?_append`), whatever the spacing and the
letter case are.

Names are neat: they have no blanks at their ends and single spaces between their words. A name can
consist of fillers only, as in "to the folder", although "new" alone is passed over as no name
(`fillers_may_be_named`). It does so exactly if no other word stands in the phrase that it is from
(`phraseFolder?_isNeat`), since the fillers in front of a name are left out as long as something is
left.
-/

set_option autoImplicit false

namespace FileClerk.Command

open FileClerk.Text

/-! ## Neat names -/

/-- The text `name` has no blanks at its ends, no two of them side by side, and spaces for blanks.
-/
structure IsNeat (name : List Char) : Prop where
  ne_nil : name ≠ []
  starts : StopsBefore isBlank name
  ends : StopsBefore isBlank name.reverse
  apart : name.IsChain fun c d => ¬ (isBlank c = true ∧ isBlank d = true)
  spaces : ∀ c ∈ name, isBlank c = true → c = ' '

/-- A word is neat. -/
theorem isNeat_of_unbroken {word : List Char} (h : Unbroken word) : IsNeat word where
  ne_nil := h.ne_nil
  starts := .of_forall h.blankFree
  ends := .of_forall fun c hc => h.blankFree c (List.mem_reverse.1 hc)
  apart := by
    refine List.Pairwise.isChain (List.pairwise_of_forall_mem_list fun c hc d _ => ?_)
    rw [h.blankFree c hc]
    simp
  spaces := by
    intro c hc hblank
    rw [h.blankFree c hc] at hblank
    cases hblank

/-- A word in front of a neat text, with a space between them, makes a neat text. -/
theorem IsNeat.append_cons {word rest : List Char} (hword : Unbroken word) (hrest : IsNeat rest) :
    IsNeat (word ++ ' ' :: rest) where
  ne_nil := by simp
  starts := stopsBefore_append hword.ne_nil (isNeat_of_unbroken hword).starts _
  ends := by
    have hreverse : (word ++ ' ' :: rest).reverse = rest.reverse ++ (' ' :: word.reverse) := by
      simp
    rw [hreverse]
    exact stopsBefore_append (by simpa using hrest.ne_nil) hrest.ends _
  apart := by
    refine List.isChain_append.2 ⟨(isNeat_of_unbroken hword).apart, ?_, ?_⟩
    · refine List.isChain_cons.2 ⟨fun d hd => ?_, hrest.apart⟩
      have hfirst := hrest.starts
      rw [StopsBefore, Option.mem_def.1 hd, Option.any_some] at hfirst
      simp [hfirst]
    · intro c hc d _
      rw [hword.blankFree c (List.mem_of_getLast? hc)]
      simp
  spaces := by
    intro c hc hblank
    rcases List.mem_append.1 hc with hleft | hright
    · rw [hword.blankFree c hleft] at hblank
      cases hblank
    · rcases List.mem_cons.1 hright with rfl | hmem
      · rfl
      · exact hrest.spaces c hmem hblank

/-- Words joined by `[' '].intercalate` make a neat text. -/
theorem isNeat_intercalate {words : List (List Char)} (hne : words ≠ [])
    (hwords : ∀ w ∈ words, Unbroken w) : IsNeat ([' '].intercalate words) := by
  induction words with
  | nil => exact absurd rfl hne
  | cons first words ih =>
      obtain ⟨hfirst, hrest⟩ := List.forall_mem_cons.1 hwords
      by_cases hwords : words = []
      · rw [hwords, List.intercalate_singleton]
        exact isNeat_of_unbroken hfirst
      · rw [intercalate_cons hwords]
        exact (ih hwords hrest).append_cons hfirst

/-! ## Words of a name -/

theorem capitalized_append {word : List Char} (h : word ≠ []) (rest : List Char) :
    capitalized (word ++ rest) = capitalized word ++ rest := by
  obtain ⟨c, word, rfl⟩ := List.exists_cons_of_ne_nil h
  rw [List.cons_append, capitalized, capitalized, List.append_assoc]

theorem unbroken_capitalized {word : List Char} (h : Unbroken word) :
    Unbroken (capitalized word) where
  ne_nil := capitalized_ne_nil h.ne_nil
  blankFree := by
    obtain ⟨c, word, rfl⟩ := List.exists_cons_of_ne_nil h.ne_nil
    obtain ⟨hc, hrest⟩ := List.forall_mem_cons.1 h.blankFree
    refine List.forall_mem_append.2 ⟨fun d hd => ?_, hrest⟩
    rw [← Bool.not_eq_true] at hc ⊢
    exact fun hblank => hc (isBlank_of_mem_upperChar hd hblank)

/-- The name `capitalized (phraseName words)` has the words of the phrase in lower case, the first
one with its first letter in upper case. -/
theorem capitalized_phraseName {first : List Char} (h : first ≠ []) (rest : List (List Char)) :
    capitalized (phraseName (first :: rest)) =
      [' '].intercalate (capitalized (lower first) :: rest.map lower) := by
  have hfirst : lower first ≠ [] := fun hnil => h ((lower_eq_nil_iff first).1 hnil)
  rw [phraseName, lower_intercalate, List.map_cons]
  by_cases hrest : rest = []
  · rw [hrest, List.map_nil, List.intercalate_singleton, List.intercalate_singleton]
  · rw [intercalate_cons (by simpa using hrest), intercalate_cons (by simpa using hrest),
      capitalized_append hfirst]

/-! ## Fillers -/

theorem isStable_fillers : ∀ v ∈ fillers, ∀ c ∈ v.toList, IsStable c := by
  decide

/-- A word is a filler if its lower-case form is one. -/
theorem isOneOf_fillers_lower (word : List Char) :
    isOneOf fillers (lower word) = isOneOf fillers word := by
  rw [Bool.eq_iff_iff, isOneOf_iff, isOneOf_iff]
  exact exists_congr fun v => and_congr_right fun hv =>
    map_foldLetter_lower_eq_iff (isStable_fillers v hv) word

/-- A word is a filler if it is one with its first letter in upper case. -/
theorem isOneOf_fillers_capitalized (word : List Char) :
    isOneOf fillers (capitalized word) = isOneOf fillers word := by
  rw [Bool.eq_iff_iff, isOneOf_iff, isOneOf_iff]
  refine exists_congr fun v => and_congr_right fun hv => ?_
  cases word with
  | nil => rfl
  | cons c rest =>
      -- a filler is in ASCII, and there a capital is folded to its letter
      have hsame : c.toNat < 128 → (capitalized (c :: rest)).map foldLetter =
          (c :: rest).map foldLetter := by
        intro hascii
        have hupper : foldLetter c.toUpper = foldLetter c :=
          forall_ascii (P := fun c => foldLetter c.toUpper = foldLetter c) (by decide +kernel)
            hascii
        rw [capitalized, upperChar, if_pos hascii, List.singleton_append, List.map_cons,
          List.map_cons, hupper]
      constructor
      · intro h
        rw [← hsame (ascii_of_upperChar fun d hd => ?_)]
        · exact h
        · refine isStable_fillers v hv _ (h ▸ List.mem_map_of_mem ?_)
          exact List.mem_append_left _ hd
      · intro h
        rw [hsame (IsStable.ascii ?_)]
        · exact h
        · exact isStable_fillers v hv _ (h ▸ List.mem_map_of_mem List.mem_cons_self)

/-- All words of `name`, as `splitOn ' '` gives them, are `fillers`. -/
def OnlyFillers (name : List Char) : Prop := ∀ w ∈ name.splitOn ' ', isOneOf fillers w = true

instance (name : List Char) : Decidable (OnlyFillers name) := List.decidableBAll _ _

/-- The predicate `OnlyFillers` holds of a folder name if the words of the phrase are `fillers`. -/
theorem onlyFillers_capitalized_iff {words : List (List Char)} (hne : words ≠ [])
    (hwords : ∀ w ∈ words, Unbroken w) :
    OnlyFillers (capitalized (phraseName words)) ↔ ∀ w ∈ words, isOneOf fillers w = true := by
  obtain ⟨first, rest, rfl⟩ := List.exists_cons_of_ne_nil hne
  obtain ⟨hfirst, hrest⟩ := List.forall_mem_cons.1 hwords
  have hparts : ∀ w ∈ capitalized (lower first) :: rest.map lower, ' ' ∉ w := by
    refine List.forall_mem_cons.2 ⟨?_, fun w hw => ?_⟩
    · exact (unbroken_capitalized hfirst.lower).notMem_of_isBlank (by decide)
    · obtain ⟨v, hv, rfl⟩ := List.mem_map.1 hw
      exact (hrest v hv).lower.notMem_of_isBlank (by decide)
  rw [OnlyFillers, capitalized_phraseName hfirst.ne_nil,
    List.splitOn_intercalate ' ' hparts (List.cons_ne_nil _ _), List.forall_mem_cons,
    List.forall_mem_cons, isOneOf_fillers_capitalized, isOneOf_fillers_lower, List.forall_mem_map]
  simp only [isOneOf_fillers_lower]

/-- The folder name of a phrase is neat. -/
theorem isNeat_capitalized {words : List (List Char)} (hne : words ≠ [])
    (hwords : ∀ w ∈ words, Unbroken w) : IsNeat (capitalized (phraseName words)) := by
  obtain ⟨first, rest, rfl⟩ := List.exists_cons_of_ne_nil hne
  obtain ⟨hfirst, hrest⟩ := List.forall_mem_cons.1 hwords
  rw [capitalized_phraseName hfirst.ne_nil]
  refine isNeat_intercalate (List.cons_ne_nil _ _) (List.forall_mem_cons.2 ⟨?_, ?_⟩)
  · exact unbroken_capitalized hfirst.lower
  · intro w hw
    obtain ⟨v, hv, rfl⟩ := List.mem_map.1 hw
    exact (hrest v hv).lower

/-! ## Phrases in a command -/

namespace FolderPhrase

/-- The text `p.text` stands in the command, and no word character stands beside it. -/
structure StandsIn (p : FolderPhrase) (command : List Char) : Prop where
  wellFormed : p.WellFormed
  place : ∃ front back, command = front ++ (p.text ++ back) ∧
    front.getLast?.any isWordChar = false ∧ StopsBefore isWordChar back

theorem WellFormed.unbroken {p : FolderPhrase} (hp : p.WellFormed) {w : List Char}
    (hw : w ∈ p.words) : Unbroken w := by
  obtain ⟨v, hv, rfl⟩ := List.mem_map.1 hw
  exact (hp.between v hv).1.unbroken

/-- The words of a name are there, and they are words of the phrase. -/
theorem Gives.words {p : FolderPhrase} {name : List (List Char)} (h : p.Gives name) :
    name ≠ [] ∧ ∀ w ∈ name, w ∈ p.words := by
  obtain ⟨skipped, hwords, -⟩ := h.fillers
  refine ⟨?_, fun w hw => hwords ▸ List.mem_append_right skipped hw⟩
  rintro rfl
  simpa [IsShort] using h.isShort

/-- The words of a name are fillers if and only if all words of the phrase are. -/
theorem Gives.forall_fillers_iff {p : FolderPhrase} {name : List (List Char)} (h : p.Gives name) :
    (∀ w ∈ name, isOneOf Command.fillers w = true) ↔
      ∀ w ∈ p.words, isOneOf Command.fillers w = true := by
  obtain ⟨skipped, hwords, hskipped⟩ := h.fillers
  rw [hwords, List.forall_mem_append]
  exact (and_iff_right hskipped).symm

end FolderPhrase

/-- Each reading of `folderPhrase` in a command is the name that a phrase of the command `Gives`. -/
theorem exists_of_mem_readings_folderPhrase {command : List Char} {words : List (List Char)}
    (h : words ∈ readings folderPhrase command) :
    ∃ p : FolderPhrase, p.StandsIn command ∧ p.Gives words := by
  obtain ⟨front, back, n, hcommand, hread⟩ := exists_of_mem_readings h
  obtain ⟨hfront, p, rest, hp, rfl, -, hgives, hrest⟩ := exists_of_folderPhrase hread
  exact ⟨p, ⟨hp, front, rest, hcommand, hfront, hrest⟩, hgives⟩

theorem FolderPhrase.WellFormed.phraseName_ne_nil {p : FolderPhrase} (hp : p.WellFormed)
    {words : List (List Char)} (hgives : p.Gives words) : phraseName words ≠ [] := by
  obtain ⟨hne, hmem⟩ := hgives.words
  have hneat := isNeat_intercalate hne fun w hw => hp.unbroken (hmem w hw)
  exact fun hnil => hneat.ne_nil ((lower_eq_nil_iff _).1 hnil)

/-- What is read counts as a name unless it is the `placeholder`. -/
theorem isName_iff {command : List Char} {words : List (List Char)}
    (h : words ∈ readings folderPhrase command) :
    (!(phraseName words).isEmpty && phraseName words != placeholder) = true ↔
      phraseName words ≠ placeholder := by
  obtain ⟨p, hstands, hgives⟩ := exists_of_mem_readings_folderPhrase h
  simp [hstands.wellFormed.phraseName_ne_nil hgives]

/-- The folder `phraseFolder?` is the name of the first reading that is not the `placeholder`. -/
theorem phraseFolder?_eq_some_iff {command folder : List Char} :
    phraseFolder? command = some folder ↔ ∃ skipped words more,
      readings folderPhrase command = skipped ++ words :: more ∧
        (∀ other ∈ skipped, phraseName other = placeholder) ∧
        phraseName words ≠ placeholder ∧ folder = capitalized (phraseName words) := by
  simp only [phraseFolder?, List.find?_map, Option.map_map, Option.map_eq_some_iff,
    List.find?_eq_some_iff_append, Function.comp_apply]
  constructor
  · rintro ⟨words, ⟨hname, skipped, more, heq, hskipped⟩, rfl⟩
    refine ⟨skipped, words, more, heq, fun other hother => ?_, ?_, rfl⟩
    · have hmem : other ∈ readings folderPhrase command :=
        heq ▸ List.mem_append_left _ hother
      have hnone := hskipped other hother
      rw [Bool.not_eq_true', ← Bool.not_eq_true, isName_iff hmem, not_not] at hnone
      exact hnone
    · exact (isName_iff (heq ▸ List.mem_append_right _ List.mem_cons_self)).1 hname
  · rintro ⟨skipped, words, more, heq, hskipped, hname, rfl⟩
    refine ⟨words, ⟨?_, skipped, more, heq, fun other hother => ?_⟩, rfl⟩
    · exact (isName_iff (heq ▸ List.mem_append_right _ List.mem_cons_self)).2 hname
    · simp [hskipped other hother]

/-- The folder `phraseFolder?` is `none` if every reading gives the `placeholder`. -/
theorem phraseFolder?_eq_none_iff {command : List Char} :
    phraseFolder? command = none ↔
      ∀ words ∈ readings folderPhrase command, phraseName words = placeholder := by
  rw [phraseFolder?, Option.map_eq_none_iff, List.find?_map, Option.map_eq_none_iff,
    List.find?_eq_none]
  refine forall₂_congr fun words hwords => ?_
  rw [Function.comp_apply, isName_iff hwords, not_not]

/-- The folder of a phrase has the name that the phrase gives. -/
theorem exists_of_phraseFolder? {command name : List Char}
    (h : phraseFolder? command = some name) : ∃ (p : FolderPhrase) (words : List (List Char)),
      p.StandsIn command ∧ p.Gives words ∧ phraseName words ≠ placeholder ∧
        name = capitalized (phraseName words) := by
  obtain ⟨skipped, words, more, heq, -, hname, rfl⟩ := phraseFolder?_eq_some_iff.1 h
  have hmem : words ∈ readings folderPhrase command :=
    heq ▸ List.mem_append_right _ List.mem_cons_self
  obtain ⟨p, hstands, hgives⟩ := exists_of_mem_readings_folderPhrase hmem
  exact ⟨p, words, hstands, hgives, hname, rfl⟩

/-- What `phraseFolder?` gives is `IsNeat`. It has `OnlyFillers` if and only if all words between
the preposition and the noun of the phrase are `fillers`. -/
theorem phraseFolder?_isNeat {command name : List Char} (h : phraseFolder? command = some name) :
    IsNeat name ∧ ∃ (p : FolderPhrase) (words : List (List Char)), p.StandsIn command ∧
      p.Gives words ∧ phraseName words ≠ placeholder ∧ name = capitalized (phraseName words) ∧
        (OnlyFillers name ↔ ∀ w ∈ p.words, isOneOf fillers w = true) := by
  obtain ⟨p, words, hstands, hgives, hplaceholder, rfl⟩ := exists_of_phraseFolder? h
  obtain ⟨hne, hmem⟩ := hgives.words
  have hunbroken : ∀ w ∈ words, Unbroken w := fun w hw =>
    hstands.wellFormed.unbroken (hmem w hw)
  refine ⟨isNeat_capitalized hne hunbroken, p, words, hstands, hgives, hplaceholder, rfl, ?_⟩
  rw [onlyFillers_capitalized_iff hne hunbroken, hgives.forall_fillers_iff]

/-- An article and `new` are left out, and the spaces in the name are single. -/
theorem phraseFolder?_isNeat_sample :
    phraseFolder? "put them in a new  TAX \t reports directory".toList =
        some "Tax reports".toList ∧
      IsNeat "Tax reports".toList ∧ ∃ (p : FolderPhrase) (words : List (List Char)),
        p.StandsIn "put them in a new  TAX \t reports directory".toList ∧ p.Gives words ∧
          phraseName words ≠ placeholder ∧
          "Tax reports".toList = capitalized (phraseName words) ∧
            (OnlyFillers "Tax reports".toList ↔ ∀ w ∈ p.words, isOneOf fillers w = true) := by
  have h : phraseFolder? "put them in a new  TAX \t reports directory".toList =
      some "Tax reports".toList := by
    decide +kernel
  exact ⟨h, phraseFolder?_isNeat h⟩

/-- The command `to the folder` names the folder `The`: the pattern takes the article for the name
when nothing else is left, and `_PLACEHOLDER_NAMES` has `new` only. -/
theorem fillers_may_be_named :
    ¬ ∀ command name, phraseFolder? command = some name → ¬ OnlyFillers name := by
  intro hall
  refine hall "move files to the folder".toList "The".toList ?_ ?_
  · decide +kernel
  · decide +kernel

/-! ## Phrases behind other text -/

/-- The reader `folderPhrase` starts nowhere in a text that ends in a blank and has none of
`prepositions` as a whole word. -/
theorem folderPhrase_append_eq_none {left right tail : List Char}
    (hend : right.getLast?.any isBlank = true)
    (hnone : ∀ w ∈ prepositions, ¬ HasWord w.toList ((left ++ right).map foldLetter)) :
    folderPhrase left.getLast? (right ++ tail) = none := by
  have hclass : ∀ c, isWordChar (foldLetter c) = isWordChar c := isWordChar_foldLetter
  by_cases hleft : left.getLast?.any isWordChar = true
  · rw [readsWordStarts_folderPhrase, if_pos hleft]
  refine opensWith_folderPhrase.eq_none ?_ _
  rintro ⟨⟨w, hw, hword⟩, -⟩
  -- the word ends in front of the blank
  have hbehind : right.dropWhile isWordChar ≠ [] := by
    intro hnil
    cases hlast : right.getLast? with
    | none =>
        rw [hlast] at hend
        cases hend
    | some c =>
        rw [hlast, Option.any_some] at hend
        have hword := List.dropWhile_eq_nil_iff.1 hnil c (List.mem_of_getLast? hlast)
        rw [(classes_of_isBlank hend).1] at hword
        cases hword
  have htake : (right ++ tail).takeWhile isWordChar = right.takeWhile isWordChar := by
    conv_lhs => rw [← right.takeWhile_append_dropWhile (p := isWordChar), List.append_assoc]
    exact takeWhile_append_stop (fun c hc => List.mem_takeWhile_imp hc)
      (stopsBefore_append hbehind (stopsBefore_dropWhile isWordChar right) tail)
  refine hnone w hw ⟨left.map foldLetter, (right.dropWhile isWordChar).map foldLetter, ?_, ?_, ?_⟩
  · rw [← hword, htake, ← List.map_append, List.takeWhile_append_dropWhile, List.map_append]
  · rw [List.getLast?_map, Option.any_map]
    simpa [Function.comp_def, hclass] using hleft
  · rw [StopsBefore, any_head?_map_of_forall hclass]
    exact stopsBefore_dropWhile isWordChar right

/-- The text with its first character in upper case and the other ones in lower case. -/
def sentenceCase : List Char → List Char
  | [] => []
  | c :: rest => c.toUpper :: rest.map Char.toLower

/-- In ASCII a name is put in sentence case letter by letter. -/
theorem capitalized_lower_of_ascii {s : List Char} (h : ∀ c ∈ s, c.toNat < 128) :
    capitalized (lower s) = sentenceCase s := by
  rw [lower_of_ascii h]
  cases s with
  | nil => rfl
  | cons c rest =>
      have hupper : upperChar c.toLower = [c.toUpper] :=
        forall_ascii (P := fun c => upperChar c.toLower = [c.toUpper]) (by decide)
          (h c List.mem_cons_self)
      rw [List.map_cons, capitalized, hupper, sentenceCase]
      rfl

theorem wordLike_prepositions : ∀ w ∈ prepositions, WordLike w.toList := by
  decide

/-- The words in front of a name that is read back are fillers. -/
theorem FolderPhrase.Names.gives {p : FolderPhrase} {name : List (List Char)} (h : p.Names name) :
    p.Gives name where
  isShort := h.isShort
  fillers := by
    obtain ⟨article, new, hwords, ⟨-, harticle⟩, -, hnew⟩ := h.words
    refine ⟨article ++ new, by rw [hwords, List.append_assoc], fun w hw => ?_⟩
    exact isOneOf_fillers_iff.2 ((List.mem_append.1 hw).imp (harticle w) (hnew w))

/-- A name that starts with no filler is not the `placeholder`. -/
theorem FolderPhrase.Names.ne_placeholder {p : FolderPhrase} {name : List (List Char)}
    (h : p.Names name) : phraseName name ≠ placeholder := by
  intro hsame
  rw [phraseName, lower_intercalate] at hsame
  match name, h with
  | [w], h =>
      rw [List.map_singleton, List.intercalate_singleton] at hsame
      have hfold : (lower w).map foldLetter = placeholder := by
        rw [hsame]
        decide
      rw [map_foldLetter_lower_eq_iff (by decide)] at hfold
      have hfiller := h.starts w rfl
      rw [isOneOf_fillers_iff.2 (Or.inr (beq_iff_eq.2 hfold))] at hfiller
      cases hfiller
  | [w, v], _ =>
      rw [List.map_cons, intercalate_cons (by simp)] at hsame
      have hspace : ' ' ∈ placeholder := hsame ▸ List.mem_append_right _ List.mem_cons_self
      exact absurd hspace (by decide)
  | [], h => simpa [IsShort] using h.isShort
  | _ :: _ :: _ :: _, h => simpa [IsShort] using h.isShort

/-- What is read behind a text without prepositions is the first phrase. -/
theorem exists_readings_folderPhrase {front tail : List Char} {words : List (List Char)} {n : Nat}
    (hend : front.getLast?.all isBlank = true)
    (hnone : ∀ w ∈ prepositions, containsWord (front.map foldLetter) w = false) (hne : tail ≠ [])
    (hread : folderPhrase front.getLast? tail = some (words, n + 1)) :
    ∃ more, readings folderPhrase (front ++ tail) = words :: more := by
  refine exists_readings_append (fun left right hs hright => ?_) hread hne
  refine folderPhrase_append_eq_none ?_ fun w hw hhas => ?_
  · rw [hs, List.getLast?_append_of_ne_nil _ hright, List.getLast?_eq_some_getLast hright,
      Option.all_some] at hend
    rw [List.getLast?_eq_some_getLast hright, Option.any_some]
    exact hend
  · have hcontains := (containsWord_iff (wordLike_prepositions w hw) _).2 (hs ▸ hhas)
    rw [hnone w hw] at hcontains
    cases hcontains

/-- The folder `phraseFolder?` of a command is the name written in its first phrase, in
`sentenceCase` and with single spaces. The text `front` is empty or ends in a blank, and it has no
preposition as a whole word, in any letter case. The word that follows the phrase is no noun. -/
theorem phraseFolder?_append {p : FolderPhrase} (hp : p.WellFormed) {name : List (List Char)}
    (hname : p.Names name) (hascii : ∀ w ∈ name, ∀ c ∈ w, c.toNat < 128) {front back : List Char}
    (hend : front.getLast?.all isBlank = true)
    (hnone : ∀ w ∈ prepositions, containsWord (front.map foldLetter) w = false)
    (hback : StopsBefore isWordChar back) (hnext : isOneOf folderNouns (firstWord back) = false) :
    phraseFolder? (front ++ (p.text ++ back)) = some (sentenceCase ([' '].intercalate name)) := by
  have hfront : front.getLast?.any isWordChar = false := by
    cases hlast : front.getLast? with
    | none => rfl
    | some c =>
        rw [hlast, Option.all_some] at hend
        exact (classes_of_isBlank hend).1
  have htext : p.text ≠ [] := by
    have hpreposition := wordLike_of_isOneOf plain_prepositions hp.preposition
    exact List.append_ne_nil_of_left_ne_nil hpreposition.ne_nil _
  have hread := FolderPhrase.read hp hname hfront hback hnext
  -- nothing is read in front, so the phrase is the first reading
  obtain ⟨n, hlength⟩ := Nat.exists_eq_add_one_of_ne_zero
    (fun hzero => htext (List.length_eq_zero_iff.1 hzero))
  rw [hlength] at hread
  obtain ⟨more, hreadings⟩ := exists_readings_folderPhrase hend hnone
    (List.append_ne_nil_of_left_ne_nil htext back) hread
  refine phraseFolder?_eq_some_iff.2 ⟨[], name, more, hreadings,
    fun _ hmem => (List.not_mem_nil hmem).elim, hname.ne_placeholder, ?_⟩
  rw [phraseName, capitalized_lower_of_ascii (forall_mem_intercalate (by decide) hascii)]

/-- A phrase with fillers, in several letter cases and with several blanks. -/
def taxPhrase : FolderPhrase where
  preposition := "INTO".toList
  gap := [' ']
  between := [("the".toList, [' ', '\t']), ("NEW".toList, [' ']), ("TAX".toList, ['\n']),
    ("reports".toList, [' '])]
  noun := "Folder".toList

/-- An article in front of the phrase and a noun further behind do no harm. -/
theorem phraseFolder?_append_taxPhrase :
    taxPhrase.WellFormed ∧ taxPhrase.Names ["TAX".toList, "reports".toList] ∧
      phraseFolder? ("put a folder ".toList ++ (taxPhrase.text ++ ", the old folder".toList)) =
        some (sentenceCase ([' '].intercalate ["TAX".toList, "reports".toList])) := by
  have hp : taxPhrase.WellFormed :=
    ⟨by decide, by decide, by decide, by decide +kernel, by decide⟩
  have hname : taxPhrase.Names ["TAX".toList, "reports".toList] :=
    ⟨Or.inr rfl, by decide, ["the".toList], ["NEW".toList], by decide, by decide, by decide⟩
  exact ⟨hp, hname, phraseFolder?_append hp hname (by decide) (by decide) (by decide +kernel) rfl
    (by decide +kernel)⟩

end FileClerk.Command
