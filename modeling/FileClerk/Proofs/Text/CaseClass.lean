import FileClerk.Proofs.Text.LetterCase
import FileClerk.Proofs.Text.Lower

/-!
# Letter case and character classes

Changing letter case brings in no blanks (`Unbroken.lower`, `isBlank_of_mem_upperChar`), and a word
of stable letters is spelled by a text if and only if it is spelled by its lower-case form
(`map_foldLetter_lower_eq_iff`). Letters that stand in a ligature or that a character beyond ASCII
has as its form are not stable.

A phrase is read by what its characters are taken for: blanks, letters in any case, other word
characters, or none of these (`readAs`). A text is taken for the same as its lower-case form, one
character for one (`map_readAs_lowerAfter`), unless it has a capital i with a dot. That letter is
taken for an i, and its lower-case form is an i and a combining dot, which is no word character.
-/

set_option autoImplicit false

namespace FileClerk.Text

/-! ## Letters -/

/-- A small letter is a word character and no blank, and it is taken for itself. -/
theorem classes_of_small {w : Char} (hw : 'a' ≤ w ∧ w ≤ 'z') :
    isBlank w = false ∧ isWordChar w = true ∧ foldLetter w = w := by
  have hascii : w.toNat < 128 := by
    have hle : w.toNat ≤ 'z'.toNat := hw.2
    exact Nat.lt_of_le_of_lt hle (by decide)
  revert hw
  exact forall_ascii (P := fun w => 'a' ≤ w ∧ w ≤ 'z' →
    isBlank w = false ∧ isWordChar w = true ∧ foldLetter w = w) (by decide +kernel) hascii

/-- The classes of `c` and `foldLetter c` agree in `isWordChar`. -/
theorem isWordChar_foldLetter (c : Char) : isWordChar (foldLetter c) = isWordChar c := by
  by_cases hletter : IsLetter c
  · rw [hletter.classes.1, (classes_of_small hletter).2.1]
  by_cases hascii : c.toNat < 128
  · rw [foldLetter, if_pos hascii, isWordChar_toLower]
  · -- beyond ASCII, what is no letter is taken for itself
    unfold IsLetter foldLetter at hletter
    unfold foldLetter
    rw [if_neg hascii] at hletter ⊢
    split at hletter
    · exact absurd (by decide) hletter
    · split at hletter
      · exact absurd (by decide) hletter
      · split at hletter
        · exact absurd (by decide) hletter
        · rename_i hi hs hk
          rw [if_neg hi, if_neg hs, if_neg hk]

/-! ## Images of characters -/

theorem mem_of_expansionOf {expansions : List (Nat × List Nat)} {n : Nat} {image : List Nat}
    (h : expansionOf expansions n = some image) : (n, image) ∈ expansions := by
  induction expansions with
  | nil => cases h
  | cons entry rest ih =>
      obtain ⟨m, listed⟩ := entry
      rw [expansionOf] at h
      split at h
      · rename_i hm
        cases h
        rw [hm]
        exact List.mem_cons_self
      · exact List.mem_cons_of_mem _ (ih h)

/-- All runs lead to code points. -/
def ValidImages (runs : List CaseRun) : Prop :=
  ∀ r ∈ runs, r.image.2 < 0xd800 ∨ 0xdfff < r.image.1 ∧ r.image.2 < 0x110000

instance (runs : List CaseRun) : Decidable (ValidImages runs) := List.decidableBAll _ runs

theorem validImages_lowerRuns : ValidImages lowerRuns := by
  decide +kernel

theorem validImages_upperRuns : ValidImages upperRuns := by
  decide +kernel

/-- The image of a code point that a run covers lies between the images of its ends. -/
theorem CaseRun.image_of_covers {r : CaseRun} {n : Nat} (h : r.covers n = true) :
    r.image.1 ≤ ((n : Int) + r.shift).toNat ∧ ((n : Int) + r.shift).toNat ≤ r.image.2 := by
  obtain ⟨hfirst, hlast, -⟩ := (r.covers_iff n).1 h
  simp only [CaseRun.image]
  omega

/-- The result of `mapCase` is a listed form, or one character: the character itself, or its image
under a run. -/
theorem mapCase_cases {runs : List CaseRun} (hvalid : ValidImages runs)
    (expansions : List (Nat × List Nat)) (c : Char) :
    (∃ image, (c.toNat, image) ∈ expansions ∧
        mapCase runs expansions c = image.map Char.ofNat) ∨
      ∃ d, mapCase runs expansions c = [d] ∧ (d = c ∨
        ∃ r ∈ runs, r.covers c.toNat = true ∧ d.toNat = ((c.toNat : Int) + r.shift).toNat) := by
  unfold mapCase
  split
  · rename_i image himage
    exact Or.inl ⟨image, mem_of_expansionOf himage, rfl⟩
  · refine Or.inr ⟨_, rfl, ?_⟩
    rcases moveBy_cases runs c.toNat with hself | ⟨r, hr, hcovers, hmove⟩
    · exact Or.inl (by rw [hself, Char.ofNat_toNat])
    · refine Or.inr ⟨r, hr, hcovers, ?_⟩
      have hchar : (moveBy runs c.toNat).isValidChar := by
        have himage := CaseRun.image_of_covers hcovers
        have hrun := hvalid r hr
        rw [Nat.isValidChar, hmove]
        omega
      rw [Char.ofNat, dif_pos hchar, ← hmove]
      rfl

/-- The image of a code point that a run covers does not lie outside of its images. -/
theorem CaseRun.not_liesOutside {r : CaseRun} {n : Nat} (h : r.covers n = true) :
    liesOutside ((n : Int) + r.shift).toNat ((n : Int) + r.shift).toNat r.image = false := by
  have himage := CaseRun.image_of_covers h
  rw [Bool.eq_false_iff, liesOutside, Ne, Bool.or_eq_true, Nat.blt_eq, Nat.blt_eq]
  omega

/-! ## Blanks -/

/-- A mapping whose images lie outside of the blanks turns only blanks into blanks. -/
theorem isBlank_of_mem_mapCase {runs : List CaseRun} {expansions : List (Nat × List Nat)}
    (hvalid : ValidImages runs)
    (hruns : ∀ r ∈ runs, ∀ n ∈ blankPoints, liesOutside n n r.image = true)
    (hexpansions : ∀ e ∈ expansions, ∀ n ∈ e.2, isBlank (Char.ofNat n) = false) {c d : Char}
    (hd : d ∈ mapCase runs expansions c) (h : isBlank d = true) : isBlank c = true := by
  rcases mapCase_cases hvalid expansions c with ⟨image, hmem, heq⟩ | ⟨e, heq, hplace⟩
  · rw [heq] at hd
    obtain ⟨n, hn, rfl⟩ := List.mem_map.1 hd
    rw [hexpansions _ hmem n hn] at h
    cases h
  · rw [heq] at hd
    obtain rfl := List.mem_singleton.1 hd
    rcases hplace with rfl | ⟨r, hr, hcovers, himage⟩
    · exact h
    · have houtside := hruns r hr _ (mem_blankPoints h)
      rw [himage, CaseRun.not_liesOutside hcovers] at houtside
      cases houtside

theorem isBlank_of_mem_lowerChar {c d : Char} (hd : d ∈ lowerChar c) (h : isBlank d = true) :
    isBlank c = true := by
  by_cases hascii : c.toNat < 128
  · rw [lowerChar, if_pos hascii, List.mem_singleton] at hd
    rwa [hd, isBlank_toLower] at h
  · rw [lowerChar, if_neg hascii] at hd
    exact isBlank_of_mem_mapCase validImages_lowerRuns (by decide +kernel) (by decide +kernel) hd h

theorem isBlank_of_mem_upperChar {c d : Char} (hd : d ∈ upperChar c) (h : isBlank d = true) :
    isBlank c = true := by
  by_cases hascii : c.toNat < 128
  · rw [upperChar, if_pos hascii, List.mem_singleton] at hd
    have hsame : isBlank c.toUpper = isBlank c :=
      forall_ascii (P := fun c => isBlank c.toUpper = isBlank c) (by decide +kernel) hascii
    rwa [hd, hsame] at h
  · rw [upperChar, if_neg hascii] at hd
    exact isBlank_of_mem_mapCase validImages_upperRuns (by decide +kernel) (by decide +kernel) hd h

/-! ## The form of a character in its place -/

/-- The lower-case form of `c` between the reversed text `before` and the text `rest`. -/
def formAt (before : List Char) (c : Char) (rest : List Char) : List Char :=
  if c == 'Σ' then [if endsWord before rest then 'ς' else 'σ'] else lowerChar c

theorem lowerAfter_cons (before : List Char) (c : Char) (rest : List Char) :
    lowerAfter before (c :: rest) = formAt before c rest ++ lowerAfter (c :: before) rest := rfl

/-- The form of `Σ` is `σ` or `ς`, and that of any other character is its `lowerChar`. -/
theorem formAt_cases (before : List Char) (c : Char) (rest : List Char) :
    (c = 'Σ' ∧ (formAt before c rest = ['ς'] ∨ formAt before c rest = ['σ'])) ∨
      (c ≠ 'Σ' ∧ formAt before c rest = lowerChar c) := by
  by_cases hsigma : c = 'Σ'
  · rw [formAt, if_pos (beq_iff_eq.2 hsigma)]
    refine Or.inl ⟨hsigma, ?_⟩
    split
    · exact Or.inl rfl
    · exact Or.inr rfl
  · exact Or.inr ⟨hsigma, by rw [formAt, if_neg (by simpa using hsigma)]⟩

theorem isBlank_of_mem_lowerAfter {before s : List Char} {d : Char}
    (hd : d ∈ lowerAfter before s) (h : isBlank d = true) : ∃ c ∈ s, isBlank c = true := by
  induction s generalizing before with
  | nil => cases hd
  | cons c rest ih =>
      rw [lowerAfter_cons, List.mem_append] at hd
      rcases hd with hform | hrest
      · refine ⟨c, List.mem_cons_self, ?_⟩
        rcases formAt_cases before c rest with ⟨-, heq | heq⟩ | ⟨-, heq⟩
        · rw [heq, List.mem_singleton] at hform
          rw [hform] at h
          exact absurd h (by decide)
        · rw [heq, List.mem_singleton] at hform
          rw [hform] at h
          exact absurd h (by decide)
        · exact isBlank_of_mem_lowerChar (heq ▸ hform) h
      · obtain ⟨e, he, hblank⟩ := ih hrest
        exact ⟨e, List.mem_cons_of_mem _ he, hblank⟩

/-- A text that is `Unbroken` stays so in lower case. -/
theorem Unbroken.lower {word : List Char} (h : Unbroken word) : Unbroken (lower word) where
  ne_nil := fun hnil => h.ne_nil ((lower_eq_nil_iff word).1 hnil)
  blankFree := by
    intro d hd
    rw [← Bool.not_eq_true]
    intro hblank
    obtain ⟨c, hc, hblank'⟩ := isBlank_of_mem_lowerAfter hd hblank
    rw [h.blankFree c hc] at hblank'
    cases hblank'

/-! ## Stable letters -/

/-- The letter `w` is neither part of a ligature nor the form of a character beyond ASCII. -/
def IsStable (w : Char) : Prop := ('a' ≤ w ∧ w ≤ 'z') ∧ w ∉ ['f', 'i', 'k', 'l', 's']

instance (w : Char) : Decidable (IsStable w) := inferInstanceAs (Decidable (_ ∧ _))

/-- Only ASCII letters are taken for stable letters. -/
theorem IsStable.ascii {c : Char} (h : IsStable (foldLetter c)) : c.toNat < 128 := by
  by_contra hascii
  rcases IsLetter.eq_of_not_ascii h.1 hascii with rfl | rfl | rfl | rfl
  · exact absurd h (by decide)
  · exact absurd h (by decide)
  · exact absurd h (by decide)
  · exact absurd h (by decide)

/-- A character that is taken for a stable letter has another code than one that is not. -/
theorem IsStable.toNat_ne {d : Char} (h : IsStable (foldLetter d)) {n : Nat}
    (hn : ¬ IsStable (foldLetter (Char.ofNat n))) : d.toNat ≠ n := by
  rintro rfl
  rw [Char.ofNat_toNat] at hn
  exact hn h

/-- Only ASCII letters have stable letters as their lower-case forms. -/
theorem ascii_of_lowerChar {c : Char} (h : ∀ d ∈ lowerChar c, IsStable (foldLetter d)) :
    c.toNat < 128 := by
  by_contra hascii
  obtain ⟨d, hd⟩ := List.exists_mem_of_ne_nil _ (lowerChar_ne_nil c)
  have hstable := h d hd
  rcases toNat_of_mem_lowerChar hascii hd hstable.ascii with hplace | hplace | hplace
  · exact hstable.toNat_ne (by decide) hplace
  · exact hstable.toNat_ne (by decide) hplace
  · exact hstable.toNat_ne (by decide) hplace

/-- The runs of upper-case forms lead to two letters of ASCII, or beyond ASCII. -/
theorem image_upperRuns : ∀ r ∈ upperRuns,
    r.image = (73, 73) ∨ r.image = (83, 83) ∨ 128 ≤ r.image.1 := by
  decide +kernel

/-- Only ASCII letters have stable letters as their upper-case forms. -/
theorem ascii_of_upperChar {c : Char} (h : ∀ d ∈ upperChar c, IsStable (foldLetter d)) :
    c.toNat < 128 := by
  by_contra hascii
  rw [upperChar, if_neg hascii] at h
  rcases mapCase_cases validImages_upperRuns upperExpansions c with
    ⟨image, hmem, heq⟩ | ⟨d, heq, hplace⟩
  · -- each of the longer forms has a character that is no stable letter
    have hsome : ∀ e ∈ upperExpansions, ∃ n ∈ e.2, ¬ IsStable (foldLetter (Char.ofNat n)) := by
      decide +kernel
    obtain ⟨n, hn, hnot⟩ := hsome _ hmem
    exact hnot (h _ (heq ▸ List.mem_map_of_mem hn))
  · have hstable := h d (heq ▸ List.mem_singleton_self d)
    rcases hplace with rfl | ⟨r, hr, hcovers, hplace⟩
    · exact hascii hstable.ascii
    · have hd := hstable.ascii
      obtain ⟨hleft, hright⟩ := CaseRun.image_of_covers hcovers
      rw [← hplace] at hleft hright
      rcases image_upperRuns r hr with himage | himage | himage
      · rw [himage] at hleft hright
        exact hstable.toNat_ne (by decide) (Nat.le_antisymm hright hleft)
      · rw [himage] at hleft hright
        exact hstable.toNat_ne (by decide) (Nat.le_antisymm hright hleft)
      · omega

/-- A text whose lower-case form spells stable letters is in ASCII. -/
theorem ascii_of_lowerAfter {before s : List Char}
    (h : ∀ d ∈ lowerAfter before s, IsStable (foldLetter d)) : ∀ c ∈ s, c.toNat < 128 := by
  induction s generalizing before with
  | nil => exact fun c hc => (List.not_mem_nil hc).elim
  | cons c rest ih =>
      rw [lowerAfter_cons, List.forall_mem_append] at h
      refine List.forall_mem_cons.2 ⟨?_, ih h.2⟩
      rcases formAt_cases before c rest with ⟨-, heq | heq⟩ | ⟨-, heq⟩
      · exact absurd (h.1 'ς' (heq ▸ List.mem_singleton_self _)) (by decide)
      · exact absurd (h.1 'σ' (heq ▸ List.mem_singleton_self _)) (by decide)
      · exact ascii_of_lowerChar (heq ▸ h.1)

/-- A word of stable letters is spelled by `lower s` if and only if it is spelled by `s`. -/
theorem map_foldLetter_lower_eq_iff {word : List Char} (hword : ∀ w ∈ word, IsStable w)
    (s : List Char) : (lower s).map foldLetter = word ↔ s.map foldLetter = word := by
  have hstable : ∀ {t : List Char}, t.map foldLetter = word →
      ∀ c ∈ t, IsStable (foldLetter c) := by
    rintro t rfl c hc
    exact hword _ (List.mem_map_of_mem hc)
  have hsame : (∀ c ∈ s, c.toNat < 128) → (lower s).map foldLetter = s.map foldLetter := by
    intro hascii
    rw [lower_of_ascii hascii, List.map_map]
    exact List.map_congr_left fun c _ => foldLetter_toLower c
  constructor
  · intro h
    rw [← hsame (ascii_of_lowerAfter (hstable h))]
    exact h
  · intro h
    rw [hsame fun c hc => (hstable h c hc).ascii]
    exact h

/-! ## What a character is read as -/

/-- One character for all that phrases take alike: blanks, the same letter in any case, other word
characters, or none of these. -/
def readAs (c : Char) : Char :=
  if isBlank c then ' ' else if IsLetter c then foldLetter c else if isWordChar c then '0' else '.'

/-- Whether all code points of a stretch lie in the runs or none of them does; nothing if only some
of them do or the stretch reaches over a gap. -/
def inRuns? : List (Nat × Nat) → Nat → Nat → Option Bool
  | [], _, _ => some false
  | (first, last) :: rest, a, b =>
    bif Nat.blt b first then some false
    else bif Nat.blt a first then none
    else bif Nat.blt last a then inRuns? rest a b
    else bif Nat.ble b last then some true
    else none

theorem inRuns_of_inRuns? {runs : List (Nat × Nat)} {a b n : Nat} {inside : Bool}
    (h : inRuns? runs a b = some inside) (ha : a ≤ n) (hb : n ≤ b) : inRuns runs n = inside := by
  induction runs with
  | nil => exact Option.some.inj h
  | cons run rest ih =>
      obtain ⟨first, last⟩ := run
      simp only [inRuns?, cond_eq_ite, Nat.blt_eq, Nat.ble_eq] at h
      rw [inRuns]
      split at h
      · have hfirst : ¬ first ≤ n := by omega
        rw [← Option.some.inj h, decide_eq_false hfirst, Bool.false_and]
      · split at h
        · cases h
        · have hfirst : first ≤ n := by omega
          rw [decide_eq_true hfirst, Bool.true_and]
          split at h
          · have hlast : ¬ n ≤ last := by omega
            rw [decide_eq_false hlast, Bool.false_or]
            exact ih h
          · split at h
            · have hlast : n ≤ last := by omega
              rw [← Option.some.inj h, decide_eq_true hlast, Bool.true_or]
            · cases h

/-- A run leads word characters to word characters and other ones to other ones: both stretches lie
on one side as a whole, or each code point is on the side of its image. -/
def CaseRun.KeepsWords (r : CaseRun) : Prop :=
  (inRuns? wordRuns r.first r.last).isSome = true ∧
      inRuns? wordRuns r.image.1 r.image.2 = inRuns? wordRuns r.first r.last ∨
    ∀ k ≤ (r.last - r.first) / r.step,
      inRuns wordRuns (r.image.1 + k * r.step) = inRuns wordRuns (r.first + k * r.step)

instance (r : CaseRun) : Decidable r.KeepsWords := inferInstanceAs (Decidable (_ ∨ _))

/-- Among the runs of lower-case forms only that of the kelvin sign leads to ASCII, and the other
ones keep words. -/
theorem keepsWords_lowerRuns : ∀ r ∈ lowerRuns,
    r.first = 0x212a ∧ r.last = 0x212a ∨ 128 ≤ r.image.1 ∧ r.KeepsWords := by
  decide +kernel

theorem CaseRun.KeepsWords.inRuns_eq {r : CaseRun} (h : r.KeepsWords) (hpos : 0 < r.image.1)
    {n : Nat} (hcovers : r.covers n = true) :
    inRuns wordRuns ((n : Int) + r.shift).toNat = inRuns wordRuns n := by
  obtain ⟨hfirst, hlast, hstep⟩ := (r.covers_iff n).1 hcovers
  obtain ⟨hleft, hright⟩ := CaseRun.image_of_covers hcovers
  rcases h with ⟨hsome, hclass⟩ | hpoints
  · obtain ⟨inside, hinside⟩ := Option.isSome_iff_exists.1 hsome
    rw [inRuns_of_inRuns? hinside hfirst hlast,
      inRuns_of_inRuns? (hclass.trans hinside) hleft hright]
  · have hpoint := hpoints ((n - r.first) / r.step)
      (Nat.div_le_div_right (Nat.sub_le_sub_right hlast _))
    -- the code point is as many steps behind the first one as its image behind that of the first
    rw [Nat.div_mul_cancel (Nat.dvd_of_mod_eq_zero hstep)] at hpoint
    have hsource : r.first + (n - r.first) = n := by omega
    have himage : r.image.1 + (n - r.first) = ((n : Int) + r.shift).toNat := by
      simp only [CaseRun.image] at hpos ⊢
      omega
    rwa [hsource, himage] at hpoint

/-- The runs of lower-case forms lead to no character beyond ASCII that is taken for a letter. -/
theorem lowerRuns_outside_letters : ∀ r ∈ lowerRuns, ∀ c ∈ ['İ', 'ı', 'ſ', Char.ofNat 0x212a],
    liesOutside c.toNat c.toNat r.image = true := by
  decide +kernel

theorem readAs_toLower (c : Char) : readAs c.toLower = readAs c := by
  have hletter : IsLetter c.toLower ↔ IsLetter c := by
    rw [IsLetter, IsLetter, foldLetter_toLower]
  simp only [readAs, isBlank_toLower, isWordChar_toLower, foldLetter_toLower, hletter]

/-- The `lowerChar` of a character other than `İ` is one character with the same `readAs`. -/
theorem exists_lowerChar_eq {c : Char} (h : c ≠ 'İ') :
    ∃ d, lowerChar c = [d] ∧ readAs d = readAs c := by
  by_cases hascii : c.toNat < 128
  · exact ⟨c.toLower, by rw [lowerChar, if_pos hascii], readAs_toLower c⟩
  by_cases hblank : isBlank c = true
  · exact ⟨c, (separator_of_isBlank hblank).2.2, rfl⟩
  by_cases hletter : IsLetter c
  · rcases hletter.eq_of_not_ascii hascii with rfl | rfl | rfl | rfl
    · exact absurd rfl h
    · exact ⟨'ı', by decide +kernel, rfl⟩
    · exact ⟨'ſ', by decide +kernel, rfl⟩
    · exact ⟨'k', by decide +kernel, by decide +kernel⟩
  rw [lowerChar, if_neg hascii]
  rcases mapCase_cases validImages_lowerRuns lowerExpansions c with
    ⟨image, hmem, -⟩ | ⟨d, heq, hplace⟩
  · obtain ⟨hcode, -⟩ := Prod.mk.inj (List.mem_singleton.1 hmem)
    refine absurd ?_ h
    rw [← Char.ofNat_toNat c, hcode]
  refine ⟨d, heq, ?_⟩
  rcases hplace with rfl | ⟨r, hr, hcovers, himage⟩
  · rfl
  obtain ⟨hleft, -⟩ := CaseRun.image_of_covers hcovers
  rcases keepsWords_lowerRuns r hr with ⟨hkelvin, hkelvin'⟩ | ⟨hlarge, hkeeps⟩
  · refine absurd ?_ hletter
    obtain ⟨hfirst, hlast, -⟩ := (r.covers_iff _).1 hcovers
    have hcode : c.toNat = 0x212a := by omega
    rw [← Char.ofNat_toNat c, hcode]
    decide +kernel
  -- the image is neither a blank nor a letter, and it is a word character if the character is one
  have hascii' : ¬ d.toNat < 128 := by omega
  have hblank' : ¬ isBlank d = true := by
    intro hd
    have hmem : d ∈ lowerChar c := by
      rw [lowerChar, if_neg hascii, heq]
      exact List.mem_singleton_self d
    exact hblank (isBlank_of_mem_lowerChar hmem hd)
  have hletter' : ¬ IsLetter d := by
    intro hd
    have hmem : d ∈ ['İ', 'ı', 'ſ', Char.ofNat 0x212a] := by
      simpa using hd.eq_of_not_ascii hascii'
    have houtside := lowerRuns_outside_letters r hr d hmem
    rw [himage, CaseRun.not_liesOutside hcovers] at houtside
    cases houtside
  have hword : isWordChar d = isWordChar c := by
    rw [isWordChar, isWordChar, if_neg hascii, if_neg hascii', himage,
      hkeeps.inRuns_eq (by omega) hcovers]
  rw [readAs, readAs, if_neg hblank, if_neg hblank', if_neg hletter, if_neg hletter', hword]

/-- The form of a character in its place is one character that is taken for the same. -/
theorem exists_formAt_eq {c : Char} (h : c ≠ 'İ') (before rest : List Char) :
    ∃ d, formAt before c rest = [d] ∧ readAs d = readAs c := by
  rcases formAt_cases before c rest with ⟨rfl, heq | heq⟩ | ⟨-, heq⟩
  · exact ⟨'ς', heq, by decide +kernel⟩
  · exact ⟨'σ', heq, by decide +kernel⟩
  · rw [heq]
    exact exists_lowerChar_eq h

/-- A text without `İ` has the same `map readAs` as its lower-case form. -/
theorem map_readAs_lowerAfter {s : List Char} (h : 'İ' ∉ s) (before : List Char) :
    (lowerAfter before s).map readAs = s.map readAs := by
  induction s generalizing before with
  | nil => rfl
  | cons c rest ih =>
      obtain ⟨hc, hrest⟩ := not_or.1 (List.mem_cons.not.1 h)
      obtain ⟨d, hform, hd⟩ := exists_formAt_eq (Ne.symm hc) before rest
      rw [lowerAfter_cons, hform, List.singleton_append, List.map_cons, List.map_cons, hd,
        ih hrest]

end FileClerk.Text
