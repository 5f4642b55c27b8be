import FileClerk.Proofs.Command.SizeGrammar
import FileClerk.Proofs.Text.LetterCase

/-!
# The comparing word and the comparator

A comparing word is read with letter case ignored, and then it is looked up in lower case among the
words that ask for more. A word that is not found there asks for less.

The two ways to treat letter case differ for three letters beyond ASCII. The capital i with a dot,
the small i without one and the long s are taken for an `i` and an `s`, but their lower-case forms
are other characters (`lowerChar_of_isLetter`). A word with one of them is never found. For the
words with an `s` this does no harm, since all of them ask for less. The one word that asks for more
and has an `i` is "bigger", so the comparator is that of the word that was read unless the word is
"bigger" with such an `i` (`comparator_follows_word_iff`), where it is the opposite one
(`comparator_not_always_word`).
-/

set_option autoImplicit false

namespace FileClerk.Text

/-- One of `İ` and `ı`, letters that `IsLetter` takes for an `i` and whose `lowerChar` is not `i`.
-/
def IsOtherI (c : Char) : Prop := c = 'İ' ∨ c = 'ı'

instance (c : Char) : Decidable (IsOtherI c) := inferInstanceAs (Decidable (_ ∨ _))

/-- For every letter but `İ`, `ı` and `ſ`, `lowerChar c = [foldLetter c]`. -/
theorem lowerChar_of_isLetter {c : Char} (h : IsLetter c) :
    lowerChar c = [foldLetter c] ∨ IsOtherI c ∨ c = 'ſ' := by
  by_cases hascii : c.toNat < 128
  · rw [lowerChar, foldLetter, if_pos hascii, if_pos hascii]
    exact Or.inl rfl
  · rcases h.eq_of_not_ascii hascii with hdot | hdotless | hs | rfl
    · exact Or.inr (Or.inl (Or.inl hdot))
    · exact Or.inr (Or.inl (Or.inr hdotless))
    · exact Or.inr (Or.inr hs)
    · exact Or.inl (by decide +kernel)

/-- The exceptions have a character beyond ASCII in their lower-case forms. -/
theorem exists_mem_lowerChar {c : Char} (h : IsOtherI c ∨ c = 'ſ') :
    ∃ d ∈ lowerChar c, ¬ d.toNat < 128 := by
  rcases h with (rfl | rfl) | rfl
  · decide +kernel
  · decide +kernel
  · decide +kernel

section Words

variable {word : List Char}

theorem notMem_sigma (hletters : ∀ c ∈ word, IsLetter c) : 'Σ' ∉ word :=
  fun hmem => absurd (hletters _ hmem) (by decide +kernel)

/-- For a word without `İ`, `ı` and `ſ`, `lower word = word.map foldLetter`. -/
theorem lower_of_isLetter (hletters : ∀ c ∈ word, IsLetter c)
    (hplain : ∀ c ∈ word, ¬ (IsOtherI c ∨ c = 'ſ')) : lower word = word.map foldLetter := by
  refine lower_eq_map (notMem_sigma hletters) fun c hc => ?_
  exact (lowerChar_of_isLetter (hletters c hc)).resolve_right (hplain c hc)

/-- A word with an exception is not in ASCII in lower case. -/
theorem exists_mem_lower (hletters : ∀ c ∈ word, IsLetter c) {c : Char} (hc : c ∈ word)
    (h : IsOtherI c ∨ c = 'ſ') : ∃ d ∈ lower word, ¬ d.toNat < 128 := by
  obtain ⟨d, hd, hascii⟩ := exists_mem_lowerChar h
  refine ⟨d, ?_, hascii⟩
  rw [lower_eq_flatMap (notMem_sigma hletters)]
  exact List.mem_flatMap.2 ⟨c, hc, hd⟩

end Words

end FileClerk.Text

namespace FileClerk.Command

open FileClerk.Text

section Comparators

variable {p : SizePhrase} {w : String}

/-- The comparator `p.comparator` is `greater` exactly if `lower p.word` is one of the
`greaterWords`. -/
theorem SizePhrase.comparator_eq_greater_iff :
    p.comparator = .greater ↔ ∃ v ∈ greaterWords, lower p.word = v.toList := by
  have hfound : (greaterWords.any fun v => v.toList == lower p.word) = true ↔
      ∃ v ∈ greaterWords, lower p.word = v.toList := by
    simp only [List.any_eq_true, beq_iff_eq]
    exact exists_congr fun v => and_congr_right fun _ => eq_comm
  rw [comparator, ← hfound]
  split
  · rename_i hmem
    exact ⟨fun _ => hmem, fun _ => rfl⟩
  · rename_i hmem
    exact iff_of_false Comparator.noConfusion hmem

theorem SizePhrase.comparator_eq_less_iff :
    p.comparator = .less ↔ ¬ p.comparator = .greater := by
  cases p.comparator with
  | greater => simp
  | less => simp

/-- The lists `greaterWords` and `lessWords` are disjoint. -/
theorem mem_lessWords_iff (hw : w ∈ greaterWords ++ lessWords) :
    w ∈ lessWords ↔ w ∉ greaterWords := by
  have hapart : ∀ v ∈ lessWords, v ∉ greaterWords := by decide
  exact ⟨hapart w, (List.mem_append.1 hw).resolve_left⟩

/-- A phrase whose comparing word is read as `w` asks for `greater` exactly if `w` is one of the
`greaterWords` and the phrase spells it without `İ` and `ı`. -/
theorem SizePhrase.comparator_eq_greater_iff_word (hw : w ∈ greaterWords ++ lessWords)
    (hword : p.word.map foldLetter = w.toList) :
    p.comparator = .greater ↔ w ∈ greaterWords ∧ ∀ c ∈ p.word, ¬ IsOtherI c := by
  have hletters := isLetter_of_map (letters_comparingWords w hw) hword
  rw [comparator_eq_greater_iff]
  by_cases hplain : ∀ c ∈ p.word, ¬ (IsOtherI c ∨ c = 'ſ')
  · -- the word is looked up as it was read
    rw [lower_of_isLetter hletters hplain, hword]
    constructor
    · rintro ⟨v, hv, heq⟩
      exact ⟨String.toList_inj.1 heq ▸ hv, fun c hc hother => hplain c hc (Or.inl hother)⟩
    · rintro ⟨hmem, -⟩
      exact ⟨w, hmem, rfl⟩
  · simp only [not_forall, not_not] at hplain
    obtain ⟨c, hc, hexception⟩ := hplain
    constructor
    · -- a word with an exception is not found
      rintro ⟨v, hv, heq⟩
      obtain ⟨d, hd, hascii⟩ := exists_mem_lower hletters hc hexception
      have hall : ∀ v ∈ greaterWords, ∀ d ∈ v.toList, d.toNat < 128 := by decide
      exact absurd (hall v hv d (heq ▸ hd)) hascii
    · rintro ⟨hmem, hother⟩
      exfalso
      -- the exception is a long s, which no word that asks for more has
      obtain rfl := hexception.resolve_left (hother c hc)
      have hall : ∀ v ∈ greaterWords, foldLetter 'ſ' ∉ v.toList := by decide
      exact hall w hmem (hword ▸ List.mem_map_of_mem hc)

/-- The comparator of `sizeThreshold` is that of the first `SizePhrase` of the text. -/
theorem comparator_of_sizeThreshold {text : List Char} {t : Threshold}
    (hread : firstReading? sizePhrase? none text = some p)
    (ht : sizeThreshold text = .ok (some t)) : t.comparator = p.comparator := by
  rw [sizeThreshold, hread] at ht
  simp only [SizePhrase.threshold] at ht
  split at ht
  · cases ht
    rfl
  · cases ht

/-- The comparator of `sizeThreshold text` is that of the word `w` which the pattern read in `text`
(`greater` for `greaterWords`, `less` for `lessWords`) exactly if `w` is not `bigger` spelled with
`İ` or `ı`. -/
theorem comparator_follows_word_iff {text : List Char} {t : Threshold}
    (hread : firstReading? sizePhrase? none text = some p)
    (ht : sizeThreshold text = .ok (some t)) (hw : w ∈ greaterWords ++ lessWords)
    (hword : p.word.map foldLetter = w.toList) :
    ((t.comparator = .greater ↔ w ∈ greaterWords) ∧ (t.comparator = .less ↔ w ∈ lessWords)) ↔
      ¬ (w = "bigger" ∧ ∃ c ∈ p.word, c = 'İ' ∨ c = 'ı') := by
  have hgreater := p.comparator_eq_greater_iff_word hw hword
  rw [comparator_of_sizeThreshold hread ht, SizePhrase.comparator_eq_less_iff,
    mem_lessWords_iff hw, not_iff_not, and_self, hgreater]
  constructor
  · rintro hfollows ⟨rfl, c, hc, hother⟩
    exact (hfollows.2 (by decide)).2 c hc hother
  · intro hnot
    refine ⟨And.left, fun hmem => ⟨hmem, fun c hc hother => hnot ⟨?_, c, hc, hother⟩⟩⟩
    -- the other i is read as one, and one word that asks for more has it
    have hfold : foldLetter c = 'i' := by
      rcases hother with rfl | rfl
      · decide
      · decide
    have hall : ∀ v ∈ greaterWords, 'i' ∈ v.toList → v = "bigger" := by decide
    exact hall w hmem (hword ▸ hfold ▸ List.mem_map_of_mem hc)

end Comparators

/-- In `LEſS than 5 mb` the word is read as `less`, and the threshold is `less`. -/
theorem comparator_follows_word_longS :
    (firstReading? sizePhrase? none "files LEſS than 5 mb".toList =
        some ⟨"LEſS".toList, ['5'], [], .mb⟩ ∧
      sizeThreshold "files LEſS than 5 mb".toList = .ok (some ⟨.less, 5242880⟩) ∧
      "less" ∈ greaterWords ++ lessWords ∧ "LEſS".toList.map foldLetter = "less".toList) ∧
    ((Comparator.less = .greater ↔ "less" ∈ greaterWords) ∧
      (Comparator.less = .less ↔ "less" ∈ lessWords)) := by
  have hread : firstReading? sizePhrase? none "files LEſS than 5 mb".toList =
      some ⟨"LEſS".toList, ['5'], [], .mb⟩ := by decide +kernel
  have ht : sizeThreshold "files LEſS than 5 mb".toList = .ok (some ⟨.less, 5242880⟩) := by
    decide +kernel
  exact ⟨⟨hread, ht, by decide, by decide⟩,
    (comparator_follows_word_iff hread ht (by decide) (by decide)).2 (by decide)⟩

/-- The word `bıgger` is read as `bigger`, but its threshold is `less`: `lower` leaves the `ı` as it
is. -/
theorem comparator_not_always_word :
    ¬ ∀ (text : List Char) (p : SizePhrase) (w : String) (t : Threshold),
      firstReading? sizePhrase? none text = some p → sizeThreshold text = .ok (some t) →
      w ∈ greaterWords ++ lessWords → p.word.map foldLetter = w.toList →
      (t.comparator = .greater ↔ w ∈ greaterWords) ∧ (t.comparator = .less ↔ w ∈ lessWords) := by
  intro hall
  have hfollows := hall "bıgger than 5 mb".toList ⟨"bıgger".toList, ['5'], [], .mb⟩ "bigger"
    ⟨.less, 5242880⟩ (by decide +kernel) (by decide +kernel) (by decide) (by decide)
  exact absurd hfollows (by decide)

end FileClerk.Command
