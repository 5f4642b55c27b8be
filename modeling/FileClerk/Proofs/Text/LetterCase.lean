import FileClerk.Proofs.Text.CharClass

/-!
# Letter case in readings

A text in which ASCII letters are put into lower case is read as before. The classes that commands
are read with do not tell the two cases of a letter apart (`traits_toLower`), so stretches and words
stand in the same places, and the lower-case form of the text is the same
(`lower_map_toLower`): a capital sigma looks at its neighbours only to see whether they have letter
case at all.
-/

set_option autoImplicit false

namespace FileClerk.Text

/-! ## Characters -/

/-- Beyond ASCII there is nothing to be put into lower case. -/
theorem toLower_eq_self {c : Char} (h : ¬ c.toNat < 128) : c.toLower = c := by
  unfold Char.toLower
  rw [dif_neg]
  rintro ⟨-, hle⟩
  have hnat : c.toNat ≤ 'Z'.toNat := hle
  exact h (Nat.lt_of_le_of_lt hnat (by decide))

/-- A function that agrees on `c` and `c.toLower` for ASCII does so for every character. -/
theorem congr_toLower {α : Type} {f : Char → α}
    (h : ∀ n < 128, f (Char.ofNat n).toLower = f (Char.ofNat n)) (c : Char) :
    f c.toLower = f c := by
  by_cases hascii : c.toNat < 128
  · exact forall_ascii (P := fun c => f c.toLower = f c) h hascii
  · rw [toLower_eq_self hascii]

/-- What readings look at in a character: its classes, its `foldLetter`, its `lowerChar`, and what
it is to the letter case of the characters around it. -/
structure Traits where
  blank : Bool
  wordChar : Bool
  letter : Char
  lowerForm : List Char
  cased : Bool
  ignorable : Bool
  sigma : Bool
deriving DecidableEq

def traits (c : Char) : Traits where
  blank := isBlank c
  wordChar := isWordChar c
  letter := foldLetter c
  lowerForm := lowerChar c
  cased := isCased c
  ignorable := isCaseIgnorable c
  sigma := c == 'Σ'

theorem traits_toLower (c : Char) : traits c.toLower = traits c :=
  congr_toLower (by decide +kernel) c

@[simp]
theorem isBlank_toLower (c : Char) : isBlank c.toLower = isBlank c :=
  congrArg Traits.blank (traits_toLower c)

@[simp]
theorem isWordChar_toLower (c : Char) : isWordChar c.toLower = isWordChar c :=
  congrArg Traits.wordChar (traits_toLower c)

@[simp]
theorem foldLetter_toLower (c : Char) : foldLetter c.toLower = foldLetter c :=
  congrArg Traits.letter (traits_toLower c)

theorem lowerChar_toLower (c : Char) : lowerChar c.toLower = lowerChar c :=
  congrArg Traits.lowerForm (traits_toLower c)

theorem isCased_toLower (c : Char) : isCased c.toLower = isCased c :=
  congrArg Traits.cased (traits_toLower c)

theorem isCaseIgnorable_toLower (c : Char) : isCaseIgnorable c.toLower = isCaseIgnorable c :=
  congrArg Traits.ignorable (traits_toLower c)

theorem isSigma_toLower (c : Char) : (c.toLower == 'Σ') = (c == 'Σ') :=
  congrArg Traits.sigma (traits_toLower c)

/-! ## Stretches -/

section Stretches

variable {f : Char → Char} {p : Char → Bool}

/-- A stretch of a class that does not tell characters apart from those that replace them ends in
the same place. -/
theorem takeWhile_map_of_forall (h : ∀ c, p (f c) = p c) (s : List Char) :
    (s.map f).takeWhile p = (s.takeWhile p).map f := by
  rw [List.takeWhile_map]
  congr 2
  exact funext h

theorem dropWhile_map_of_forall (h : ∀ c, p (f c) = p c) (s : List Char) :
    (s.map f).dropWhile p = (s.dropWhile p).map f := by
  rw [List.dropWhile_map]
  congr 2
  exact funext h

theorem any_head?_map_of_forall (h : ∀ c, p (f c) = p c) (s : List Char) :
    (s.map f).head?.any p = s.head?.any p := by
  cases s with
  | nil => rfl
  | cons c rest => exact h c

end Stretches

theorem trim_map_toLower (s : List Char) :
    trim (s.map Char.toLower) = (trim s).map Char.toLower := by
  rw [trim, trim, dropWhile_map_of_forall isBlank_toLower, ← List.map_reverse,
    dropWhile_map_of_forall isBlank_toLower, List.map_reverse]

/-! ## Lower-case forms -/

theorem meetsCased_map_toLower (s : List Char) :
    meetsCased (s.map Char.toLower) = meetsCased s := by
  have hskip : (fun c => !isCaseIgnorable c) ∘ Char.toLower = fun c => !isCaseIgnorable c :=
    funext fun c => congrArg _ (isCaseIgnorable_toLower c)
  rw [meetsCased, meetsCased, List.find?_map, hskip, Option.any_map]
  congr 1
  exact funext isCased_toLower

theorem lowerAfter_map_toLower (before s : List Char) :
    lowerAfter (before.map Char.toLower) (s.map Char.toLower) = lowerAfter before s := by
  -- what stands before grows by one character at each step
  induction s generalizing before with
  | nil => rfl
  | cons c rest ih =>
      rw [List.map_cons, lowerAfter, lowerAfter, isSigma_toLower, lowerChar_toLower, endsWord,
        endsWord, meetsCased_map_toLower, meetsCased_map_toLower, ← ih (c :: before),
        List.map_cons]

/-- The case of ASCII letters does not count for `lower`. -/
theorem lower_map_toLower (s : List Char) : lower (s.map Char.toLower) = lower s :=
  lowerAfter_map_toLower [] s

/-- A text without `Σ` is put into lower case character by character. -/
theorem lower_eq_flatMap {s : List Char} (h : 'Σ' ∉ s) : lower s = s.flatMap lowerChar := by
  have hall : ∀ before, lowerAfter before s = s.flatMap lowerChar := by
    induction s with
    | nil => exact fun _ => rfl
    | cons c rest ih =>
        intro before
        obtain ⟨hc, hrest⟩ := not_or.1 (List.mem_cons.not.1 h)
        have hsigma : ¬ (c == 'Σ') = true := by
          rw [beq_iff_eq]
          exact Ne.symm hc
        rw [lowerAfter, if_neg hsigma, ih hrest, List.flatMap_cons]
  exact hall []

/-- A text whose characters have one character each as their forms is put into lower case by these
forms. -/
theorem lower_eq_map {f : Char → Char} {s : List Char} (hsigma : 'Σ' ∉ s)
    (h : ∀ c ∈ s, lowerChar c = [f c]) : lower s = s.map f := by
  rw [lower_eq_flatMap hsigma, List.map_eq_flatMap, List.flatMap_def, List.flatMap_def,
    List.map_congr_left h]

/-- On ASCII, `lower` is `map Char.toLower`. -/
theorem lower_of_ascii {s : List Char} (h : ∀ c ∈ s, c.toNat < 128) :
    lower s = s.map Char.toLower :=
  lower_eq_map (fun hmem => absurd (h _ hmem) (by decide)) fun c hc => by
    rw [lowerChar, if_pos (h c hc)]

end FileClerk.Text
