import FileClerk.Proofs.Command.Comparator
import FileClerk.Proofs.Command.Keyword
import FileClerk.Proofs.Command.Opener
import FileClerk.Proofs.Command.SizeValue
import FileClerk.Proofs.Text.LetterCase
import FileClerk.Proofs.Text.Lower

/-!
# Size clauses

A size clause is a part of a command that spells a size phrase, such as "larger than 2.5 MB".
Commands are read in lower case, and the clause in lower case spells the same phrase with the same
threshold (`SizeClause.spelled_lower`, `SizePhrase.threshold_lowered`). Keywords other than the
words for large and small do not start a word of a clause (`SizeClause.not_startsWord`).
-/

set_option autoImplicit false

namespace FileClerk.Command

open FileClerk.Text FileClerk.Number

/-! ## Phrases in lower case -/

/-- The phrase with `lower word` for its comparing word. -/
def SizePhrase.lowered (p : SizePhrase) : SizePhrase := { p with word := lower p.word }

/-- The `threshold` does not depend on letter case. -/
theorem SizePhrase.threshold_lowered (p : SizePhrase) : p.lowered.threshold = p.threshold := by
  have hcomparator : p.lowered.comparator = p.comparator := by
    rw [comparator, comparator, lowered, lower_lower]
  rw [threshold, threshold, hcomparator]
  rfl

/-- Digits have no letter case. -/
theorem map_toLower_digits {s : List Char} (hs : ∀ c ∈ s, isDigit c = true) :
    s.map Char.toLower = s := by
  have hself : ∀ c ∈ s, c.toLower = id c := by
    intro c hc
    by_cases hascii : c.toNat < 128
    · exact forall_ascii (P := fun c => isDigit c = true → c.toLower = c) (by decide) hascii
        (hs c hc)
    · exact toLower_eq_self hascii
  rw [List.map_congr_left hself, List.map_id]

/-- A text in ASCII that spells `p` spells `p.lowered` in lower case. -/
theorem SizePhrase.Spelled.map_toLower {p : SizePhrase} {u : List Char} (h : p.Spelled u)
    (hascii : ∀ c ∈ u, c.toNat < 128) : p.lowered.Spelled (u.map Char.toLower) := by
  have hfold : ∀ s : List Char, (s.map Char.toLower).map foldLetter = s.map foldLetter := by
    intro s
    rw [List.map_map]
    congr 1
    exact funext foldLetter_toLower
  have hblanks : ∀ {s : List Char}, Blanks s → Blanks (s.map Char.toLower) := by
    intro s hs c hc
    obtain ⟨d, hd, rfl⟩ := List.mem_map.1 hc
    rw [isBlank_toLower]
    exact hs d hd
  obtain ⟨gap, than, gap', space, unit, hcomparing, hne, hgap, hthan, hne', hgap', hwhole,
    hdigits, hfraction, hspace, hunit⟩ := h
  have hword : lower p.word = p.word.map Char.toLower :=
    lower_of_ascii fun c hc => hascii c (List.mem_append_left _ hc)
  have hpointed : (pointed p.fraction).map Char.toLower = pointed p.fraction := by
    have hdigits := map_toLower_digits hfraction
    cases hlist : p.fraction with
    | nil => rfl
    | cons d more =>
        rw [hlist] at hdigits
        rw [pointed, List.map_cons, hdigits]
        rfl
  -- the parts of the text in lower case are the parts of a spelling
  simp only [List.map_append, map_toLower_digits hdigits, hpointed, ← hword]
  refine .intro _ _ _ _ _ ?_ (by simpa using hne) (hblanks hgap) (by rw [hfold, hthan])
    (by simpa using hne') (hblanks hgap') hwhole hdigits hfraction (hblanks hspace)
    (by rw [hfold, hunit]; rfl)
  obtain ⟨w, hw, hfolded⟩ := hcomparing
  exact ⟨w, hw, by rw [lowered, hword, hfold, hfolded]⟩

/-! ## Clauses -/

/-- A text in ASCII that is `phrase.Spelled`, in any letter case. -/
structure SizeClause where
  text : String
  phrase : SizePhrase
  ascii : ∀ c ∈ text.toList, c.toNat < 128
  spelled : phrase.Spelled text.toList

namespace SizeClause

/-- The comparing word is one of `greaterWords`: the clause asks for files above its size. -/
def AsksAbove (c : SizeClause) : Prop := ∃ w ∈ greaterWords, lower c.phrase.word = w.toList

/-- The comparing word is one of `lessWords`: the clause asks for files below its size. -/
def AsksBelow (c : SizeClause) : Prop := ∃ w ∈ lessWords, lower c.phrase.word = w.toList

variable (c : SizeClause)

theorem comparator_of_asksAbove (h : c.AsksAbove) : c.phrase.comparator = .greater :=
  SizePhrase.comparator_eq_greater_iff.2 h

theorem comparator_of_asksBelow (h : c.AsksBelow) : c.phrase.comparator = .less := by
  have hapart : ∀ v ∈ greaterWords, ∀ w ∈ lessWords, v.toList ≠ w.toList := by decide
  obtain ⟨w, hw, hword⟩ := h
  rw [SizePhrase.comparator_eq_less_iff, SizePhrase.comparator_eq_greater_iff]
  rintro ⟨v, hv, heq⟩
  exact hapart v hv w hw (heq.symm.trans hword)

theorem lower_text : lower c.text.toList = c.text.toList.map Char.toLower :=
  lower_of_ascii c.ascii

/-- The clause spells its phrase in lower case as well. -/
theorem spelled_lower : c.phrase.lowered.Spelled (lower c.text.toList) := by
  rw [lower_text]
  exact c.spelled.map_toLower c.ascii

/-- The clause is in ASCII in lower case as well. -/
theorem ascii_lower : ∀ d ∈ lower c.text.toList, d.toNat < 128 := by
  rw [lower_text]
  intro d hd
  obtain ⟨e, he, rfl⟩ := List.mem_map.1 hd
  exact forall_ascii (P := fun e => e.toLower.toNat < 128) (by decide) (c.ascii e he)

/-- In lower case the clause could stand in a name term. -/
theorem isTermChar_lower : ∀ d ∈ lower c.text.toList, isTermChar d = true := by
  intro d hd
  exact forall_ascii (P := fun d => (IsLetter d ∨ isBlank d = true ∨ isDigit d = true ∨ d = '.') →
    isTermChar d = true) (by decide +kernel) (c.ascii_lower d hd) (c.spelled_lower.classes d hd)

end SizeClause

/-! ## Readings of phrases -/

section Readings

variable {p : SizePhrase} {u : List Char}

/-- A phrase ends with a letter. -/
theorem SizePhrase.Spelled.stopsBefore_reverse (h : p.Spelled u) :
    StopsBefore isBlank u.reverse := by
  obtain ⟨c, hlast, hletter⟩ := h.exists_getLast?
  rw [StopsBefore, List.head?_reverse, hlast]
  exact hletter.classes.2.1

/-- All digits of a phrase are those of its `whole` and its `fraction`. -/
theorem SizePhrase.Spelled.countP_isDigit (h : p.Spelled u) :
    u.countP isDigit = p.whole.length + p.fraction.length := by
  obtain ⟨gap, than, gap', space, unit, ⟨w, hw, hword⟩, -, hblanks, hthan, -, hblanks', -, hdigits,
    hfraction, hspace, hunit⟩ := h
  -- only the number has digits
  have hletters : ∀ {s : List Char}, (∀ c ∈ s, IsLetter c) → s.countP isDigit = 0 :=
    fun hs => List.countP_eq_zero.2 fun c hc => by simp [(hs c hc).classes.2.2.1]
  have hgap : ∀ {s : List Char}, Blanks s → s.countP isDigit = 0 :=
    fun hs => List.countP_eq_zero.2 fun c hc => by simp [(classes_of_isBlank (hs c hc)).2.1]
  have hpointed : (pointed p.fraction).countP isDigit = p.fraction.length := by
    rw [← List.countP_eq_length.2 hfraction]
    cases p.fraction with
    | nil => rfl
    | cons d more => exact List.countP_cons_of_neg (by decide)
  simp only [List.countP_append, hpointed, List.countP_eq_length.2 hdigits, hgap hblanks,
    hgap hblanks', hgap hspace, hletters (isLetter_of_map (letters_comparingWords w hw) hword),
    hletters (isLetter_of_map (by decide) hthan),
    hletters (isLetter_of_map (letters_units p.unit) hunit)]
  omega

end Readings

/-! ## What a clause says -/

/-- The text `v` starts neither a comparing word nor `than`, and it has a letter that no unit has.
-/
structure ApartFromClauses (v : List Char) : Prop where
  wordLike : WordLike v
  words : ∀ w ∈ "than" :: (greaterWords ++ lessWords), ¬ StartsWord v w.toList
  letter : ∃ a ∈ v, IsLetter a ∧ ∀ unit ∈ SizeUnit.all, a ∉ unit.letters

instance (v : List Char) : Decidable (ApartFromClauses v) :=
  decidable_of_iff (WordLike v ∧ (∀ w ∈ "than" :: (greaterWords ++ lessWords),
      ¬ StartsWord v w.toList) ∧
      ∃ a ∈ v, IsLetter a ∧ ∀ unit ∈ SizeUnit.all, a ∉ unit.letters)
    ⟨fun h => ⟨h.1, h.2.1, h.2.2⟩, fun h => ⟨h.wordLike, h.words, h.letter⟩⟩

namespace SizeClause

variable (c : SizeClause)

/-- In lower case the letters stand for themselves. -/
theorem foldLetter_eq_self : ∀ d ∈ lower c.text.toList, foldLetter d = d := by
  rw [lower_text]
  intro d hd
  obtain ⟨e, he, rfl⟩ := List.mem_map.1 hd
  exact forall_ascii (P := fun e => foldLetter e.toLower = e.toLower) (by decide +kernel)
    (c.ascii e he)

/-- The words of a clause in lower case: a comparing word, `than`, and a number and a unit whose
letters are those of a unit. -/
theorem exists_lower_eq : ∃ w ∈ greaterWords ++ lessWords, ∃ gap gap' rest,
    lower c.text.toList = w.toList ++ (gap ++ ("than".toList ++ (gap' ++ rest))) ∧
      gap ≠ [] ∧ Blanks gap ∧ gap' ≠ [] ∧ Blanks gap' ∧
      ∀ d ∈ rest, IsLetter d → ∃ unit ∈ SizeUnit.all, d ∈ unit.letters := by
  -- what spells the words in any letter case spells them as they are
  have hself := c.foldLetter_eq_self
  have hspelled := c.spelled_lower
  generalize lower c.text.toList = u at hself hspelled
  obtain ⟨gap, than, gap', space, unit, ⟨w, hw, hword⟩, hne, hblanks, hthan, hne', hblanks', -,
    hdigits, hfraction, hspace, hunit⟩ := hspelled
  simp only [List.mem_append] at hself
  have hword' : c.phrase.lowered.word = w.toList := by
    rw [← hword, List.map_congr_left (g := id) fun d hd => hself d (Or.inl hd), List.map_id]
  have hthan' : than = "than".toList := by
    have hthan'' := hthan
    rw [List.map_congr_left (g := id) fun d hd => hself d (Or.inr (Or.inr (Or.inl hd))),
      List.map_id] at hthan''
    exact hthan''
  refine ⟨w, hw, gap, gap', _, by rw [hword', hthan'], hne, hblanks, hne', hblanks', ?_⟩
  intro d hd hletter
  refine ⟨c.phrase.unit, by cases c.phrase.unit <;> decide, ?_⟩
  have hmem : d ∈ unit := SizePhrase.Spelled.mem_unit hdigits hfraction hspace hd hletter
  rw [← hself d (by simp [hmem])]
  exact hunit ▸ List.mem_map_of_mem hmem

/-- A keyword that is `ApartFromClauses` starts no word of a clause. -/
theorem not_startsWord {v : List Char} (hv : ApartFromClauses v) :
    ¬ StartsWord v (lower c.text.toList) := by
  obtain ⟨w, hw, gap, gap', rest, heq, hne, hblanks, hne', hblanks', hrest⟩ := c.exists_lower_eq
  rw [heq, startsWord_append_gap hv.wordLike.unbroken hne hblanks,
    startsWord_append_gap hv.wordLike.unbroken hne' hblanks']
  refine not_or.2 ⟨hv.words w (List.mem_cons_of_mem _ hw),
    not_or.2 ⟨hv.words "than" List.mem_cons_self, ?_⟩⟩
  -- a letter of the keyword would stand in the number or in the unit
  rintro ⟨n, front, back, rfl, -⟩
  obtain ⟨a, ha, hletter, hunits⟩ := hv.letter
  obtain ⟨unit, hunit, hmem⟩ := hrest a (by simp [ha]) hletter
  exact hunits unit hunit hmem

end SizeClause

end FileClerk.Command
