import FileClerk.Proofs.Text.Case

/-!
# Character classes and stretches

The classes that commands are read with lie apart: letters, digits, points and blanks tell each
other off, and only letters and digits are word characters. A reader that takes a stretch of one
class therefore stops where the next part of another class starts (`StopsBefore`), so it takes a
stretch that was written down and leaves what stands behind it.
-/

set_option autoImplicit false

namespace FileClerk.Text

/-! ## Classes -/

/-- The code points of the characters that are `isBlank`. -/
def blankPoints : List Nat :=
  [9, 10, 11, 12, 13, 28, 29, 30, 31, 32, 0x85, 0xa0, 0x1680, 0x2000, 0x2001, 0x2002, 0x2003,
    0x2004, 0x2005, 0x2006, 0x2007, 0x2008, 0x2009, 0x200a, 0x2028, 0x2029, 0x202f, 0x205f, 0x3000]

theorem mem_blankPoints {c : Char} (h : isBlank c = true) : c.toNat ∈ blankPoints := by
  -- the stretches of the list are those of the definition
  have hstretches : blankPoints = List.range' 9 5 ++ (List.range' 28 5 ++ ([0x85, 0xa0, 0x1680] ++
      (List.range' 0x2000 11 ++ [0x2028, 0x2029, 0x202f, 0x205f, 0x3000]))) := rfl
  simp only [isBlank, Bool.or_eq_true, Bool.and_eq_true, decide_eq_true_eq, beq_iff_eq,
    or_assoc] at h
  simp only [hstretches, List.mem_append, List.mem_range'_1, List.mem_cons, List.not_mem_nil,
    or_false, or_assoc]
  refine h.imp (fun h => ?_) (.imp (fun h => ?_) (.imp_right (.imp_right (.imp_right
    (.imp_left fun h => ?_)))))
  · omega
  · omega
  · omega

/-- What holds of the code points of blanks holds of every blank. -/
theorem forall_blank {P : Char → Prop} (h : ∀ n ∈ blankPoints, P (Char.ofNat n)) {c : Char}
    (hc : isBlank c = true) : P c := by
  have hP := h c.toNat (mem_blankPoints hc)
  rwa [Char.ofNat_toNat] at hP

/-- A blank is neither a word character nor a digit nor a point. -/
theorem classes_of_isBlank {c : Char} (h : isBlank c = true) :
    isWordChar c = false ∧ isDigit c = false ∧ (c == '.') = false :=
  forall_blank (P := fun c => isWordChar c = false ∧ isDigit c = false ∧ (c == '.') = false)
    (by decide +kernel) h

/-- A word character is no blank. -/
theorem isBlank_of_isWordChar {c : Char} (h : isWordChar c = true) : isBlank c = false := by
  rw [← Bool.not_eq_true]
  intro hblank
  rw [(classes_of_isBlank hblank).1] at h
  cases h

/-- A digit is no blank. -/
theorem isBlank_of_isDigit {c : Char} (h : isDigit c = true) : isBlank c = false := by
  rw [← Bool.not_eq_true]
  intro hblank
  rw [(classes_of_isBlank hblank).2.1] at h
  cases h

/-- The character is taken for a Latin letter: `foldLetter c` is one. -/
def IsLetter (c : Char) : Prop := 'a' ≤ foldLetter c ∧ foldLetter c ≤ 'z'

instance (c : Char) : Decidable (IsLetter c) := inferInstanceAs (Decidable (_ ∧ _))

/-- Beyond ASCII four characters are taken for Latin letters: `İ`, `ı`, `ſ` and the kelvin sign. -/
theorem IsLetter.eq_of_not_ascii {c : Char} (h : IsLetter c) (hascii : ¬ c.toNat < 128) :
    c = 'İ' ∨ c = 'ı' ∨ c = 'ſ' ∨ c = Char.ofNat 0x212a := by
  unfold IsLetter foldLetter at h
  rw [if_neg hascii] at h
  split at h
  · rename_i hi
    rw [Bool.or_eq_true, beq_iff_eq, beq_iff_eq] at hi
    exact hi.imp_right Or.inl
  · split at h
    · rename_i hs
      exact Or.inr (Or.inr (Or.inl (beq_iff_eq.1 hs)))
    · split at h
      · rename_i hk
        refine Or.inr (Or.inr (Or.inr ?_))
        rw [← beq_iff_eq.1 hk, Char.ofNat_toNat]
      · exfalso
        have hle : c.toNat ≤ 'z'.toNat := h.2
        have hz : 'z'.toNat = 122 := rfl
        omega

/-- What is taken for a Latin letter is a word character, and it is neither a blank nor a digit nor
a point. -/
theorem IsLetter.classes {c : Char} (h : IsLetter c) :
    isWordChar c = true ∧ isBlank c = false ∧ isDigit c = false ∧ (c == '.') = false := by
  by_cases hascii : c.toNat < 128
  · revert h
    exact forall_ascii (P := fun c => IsLetter c → isWordChar c = true ∧ isBlank c = false ∧
      isDigit c = false ∧ (c == '.') = false) (by decide +kernel) hascii
  · rcases h.eq_of_not_ascii hascii with rfl | rfl | rfl | rfl
    · decide +kernel
    · decide +kernel
    · decide +kernel
    · decide +kernel

theorem not_isLetter_of_isBlank {c : Char} (h : isBlank c = true) : ¬ IsLetter c := by
  intro hletter
  rw [hletter.classes.2.1] at h
  cases h

theorem not_isLetter_of_isDigit {c : Char} (h : isDigit c = true) : ¬ IsLetter c := by
  intro hletter
  rw [hletter.classes.2.2.1] at h
  cases h

/-! ## Classes along a text -/

/-- A condition on the characters of a text is decided along the text, not over all characters. -/
instance decidableForallChar (s : List Char) (p : Char → Prop) [DecidablePred p] :
    Decidable (∀ c ∈ s, p c) :=
  List.decidableBAll p s

instance decidableExistsChar (s : List Char) (p : Char → Prop) [DecidablePred p] :
    Decidable (∃ c ∈ s, p c) :=
  List.decidableBEx p s

/-- All characters are from `a` to `z`. -/
def PlainLetters (word : List Char) : Prop := ∀ w ∈ word, 'a' ≤ w ∧ w ≤ 'z'

instance (word : List Char) : Decidable (PlainLetters word) := List.decidableBAll _ word

/-- Texts that fold to letters consist of letters. -/
theorem isLetter_of_map {u word : List Char} (hword : PlainLetters word)
    (h : u.map foldLetter = word) : ∀ c ∈ u, IsLetter c := by
  intro c hc
  exact hword (foldLetter c) (h ▸ List.mem_map_of_mem hc)

/-- So they consist of word characters. -/
theorem isWordChar_of_map {u word : List Char} (hword : PlainLetters word)
    (h : u.map foldLetter = word) : ∀ c ∈ u, isWordChar c = true :=
  fun c hc => (isLetter_of_map hword h c hc).classes.1

/-- The text is a word: it is not empty, and each character is `isWordChar`. -/
structure WordLike (word : List Char) : Prop where
  ne_nil : word ≠ []
  classes : ∀ c ∈ word, isWordChar c = true

instance (word : List Char) : Decidable (WordLike word) :=
  have : Decidable (∀ c ∈ word, isWordChar c = true) := List.decidableBAll _ word
  decidable_of_iff (word ≠ [] ∧ ∀ c ∈ word, isWordChar c = true)
    ⟨fun h => ⟨h.1, h.2⟩, fun h => ⟨h.ne_nil, h.classes⟩⟩

/-- The text is in one piece: it is not empty, and no character is `isBlank`. -/
structure Unbroken (word : List Char) : Prop where
  ne_nil : word ≠ []
  blankFree : ∀ c ∈ word, isBlank c = false

instance (word : List Char) : Decidable (Unbroken word) :=
  have : Decidable (∀ c ∈ word, isBlank c = false) := List.decidableBAll _ word
  decidable_of_iff (word ≠ [] ∧ ∀ c ∈ word, isBlank c = false)
    ⟨fun h => ⟨h.1, h.2⟩, fun h => ⟨h.ne_nil, h.blankFree⟩⟩

theorem Unbroken.notMem_of_isBlank {word : List Char} (h : Unbroken word) {c : Char}
    (hc : isBlank c = true) : c ∉ word := by
  intro hmem
  rw [h.blankFree c hmem] at hc
  cases hc

/-- Words are in one piece. -/
theorem WordLike.unbroken {word : List Char} (h : WordLike word) : Unbroken word :=
  ⟨h.ne_nil, fun c hc => isBlank_of_isWordChar (h.classes c hc)⟩

/-- All characters of `gap` are `isBlank`. -/
def Blanks (gap : List Char) : Prop := ∀ c ∈ gap, isBlank c = true

instance (gap : List Char) : Decidable (Blanks gap) := List.decidableBAll _ gap

/-! ## Where a stretch ends -/

/-- The text does not start with a character of the class `p`. -/
def StopsBefore (p : Char → Bool) (rest : List Char) : Prop := rest.head?.any p = false

section Stretches

variable {p : Char → Bool} {u rest : List Char}

theorem stopsBefore_nil (p : Char → Bool) : StopsBefore p [] := rfl

theorem stopsBefore_cons {c : Char} : StopsBefore p (c :: rest) ↔ p c = false := by
  simp [StopsBefore]

/-- Characters outside of the class may stand in front. -/
theorem StopsBefore.append (hu : ∀ c ∈ u, p c = false) (hrest : StopsBefore p rest) :
    StopsBefore p (u ++ rest) := by
  cases u with
  | nil => exact hrest
  | cons c u => exact stopsBefore_cons.2 (hu c List.mem_cons_self)

/-- Only the first character counts. -/
theorem stopsBefore_append (hne : u ≠ []) (hu : StopsBefore p u) (rest : List Char) :
    StopsBefore p (u ++ rest) := by
  cases u with
  | nil => exact absurd rfl hne
  | cons c u => exact stopsBefore_cons.2 (stopsBefore_cons.1 hu)

theorem StopsBefore.of_forall (hu : ∀ c ∈ u, p c = false) : StopsBefore p u := by
  cases u with
  | nil => exact stopsBefore_nil p
  | cons c u => exact stopsBefore_cons.2 (hu c List.mem_cons_self)

theorem stopsBefore_dropWhile (p : Char → Bool) (s : List Char) :
    StopsBefore p (s.dropWhile p) := by
  cases hdrop : s.dropWhile p with
  | nil => exact stopsBefore_nil p
  | cons c rest =>
      have hne : s.dropWhile p ≠ [] := by simp [hdrop]
      have hfirst := List.head_dropWhile_not p hne
      simp only [hdrop, List.head_cons] at hfirst
      exact stopsBefore_cons.2 hfirst

theorem StopsBefore.takeWhile_eq (h : StopsBefore p rest) : rest.takeWhile p = [] := by
  cases rest with
  | nil => rfl
  | cons c rest => simp [stopsBefore_cons.1 h]

theorem StopsBefore.dropWhile_eq (h : StopsBefore p rest) : rest.dropWhile p = rest := by
  cases rest with
  | nil => rfl
  | cons c rest => simp [stopsBefore_cons.1 h]

/-- A blank stops a word. -/
theorem stopsBefore_of_blank (h : rest.head?.any isBlank = true) :
    StopsBefore isWordChar rest := by
  cases rest with
  | nil => exact stopsBefore_nil isWordChar
  | cons c rest => exact stopsBefore_cons.2 (classes_of_isBlank (by simpa using h)).1

/-- Letters stop blanks, digits and points. -/
theorem stopsBefore_letters (hne : u ≠ []) (hu : ∀ c ∈ u, IsLetter c) (rest : List Char) :
    StopsBefore isBlank (u ++ rest) ∧ StopsBefore isDigit (u ++ rest) ∧
      StopsBefore (· == '.') (u ++ rest) := by
  refine ⟨?_, ?_, ?_⟩
  · exact stopsBefore_append hne (.of_forall fun c hc => (hu c hc).classes.2.1) rest
  · exact stopsBefore_append hne (.of_forall fun c hc => (hu c hc).classes.2.2.1) rest
  · exact stopsBefore_append hne (.of_forall fun c hc => (hu c hc).classes.2.2.2) rest

/-- A stretch of the class is what `takeWhile` takes, if it ends where it was to end. -/
theorem takeWhile_append_stop (hu : ∀ c ∈ u, p c = true) (hrest : StopsBefore p rest) :
    (u ++ rest).takeWhile p = u := by
  rw [List.takeWhile_append_of_pos hu, hrest.takeWhile_eq, List.append_nil]

/-- The rest behind a stretch of the class is what `dropWhile` leaves. -/
theorem dropWhile_append_stop (hu : ∀ c ∈ u, p c = true) (hrest : StopsBefore p rest) :
    (u ++ rest).dropWhile p = rest := by
  rw [List.dropWhile_append_of_pos hu, hrest.dropWhile_eq]

/-- A text is cut in one way only into a stretch of the class and a rest where the class stops. -/
theorem append_inj_of_stops {v rest' : List Char} (hu : ∀ c ∈ u, p c = true)
    (hrest : StopsBefore p rest) (hv : ∀ c ∈ v, p c = true) (hrest' : StopsBefore p rest')
    (h : u ++ rest = v ++ rest') : u = v ∧ rest = rest' := by
  constructor
  · rw [← takeWhile_append_stop hu hrest, h, takeWhile_append_stop hv hrest']
  · rw [← dropWhile_append_stop hu hrest, h, dropWhile_append_stop hv hrest']

/-- What follows a text changes no stretch in it if the stretch cannot go on there. -/
theorem StopsBefore.takeWhile_append (h : StopsBefore p rest) (u : List Char) :
    (u ++ rest).takeWhile p = u.takeWhile p := by
  induction u with
  | nil => exact h.takeWhile_eq
  | cons c u ih =>
      rw [List.cons_append, List.takeWhile_cons, List.takeWhile_cons, ih]

theorem StopsBefore.dropWhile_append (h : StopsBefore p rest) (u : List Char) :
    (u ++ rest).dropWhile p = u.dropWhile p ++ rest := by
  induction u with
  | nil => exact h.dropWhile_eq
  | cons c u ih =>
      rw [List.cons_append, List.dropWhile_cons, List.dropWhile_cons, ih]
      split
      · rfl
      · rfl

end Stretches

/-! ## Letters -/

/-- The reader `afterLetters word` takes the start of a text whose `foldLetter` is `word`. -/
theorem afterLetters_eq_some_iff {word s rest : List Char} :
    afterLetters word s = some rest ↔ ∃ u, s = u ++ rest ∧ u.map foldLetter = word := by
  induction word generalizing s with
  | nil =>
      rw [afterLetters, Option.some.injEq]
      constructor
      · rintro rfl
        exact ⟨[], rfl, rfl⟩
      · rintro ⟨u, rfl, hu⟩
        rw [List.map_eq_nil_iff.1 hu]
        rfl
  | cons w word ih =>
      cases s with
      | nil =>
          simp only [afterLetters, reduceCtorEq, false_iff, not_exists, not_and]
          intro u hu hmap
          rw [List.nil_eq, List.append_eq_nil_iff] at hu
          rw [hu.1] at hmap
          cases hmap
      | cons c s =>
          simp only [afterLetters, beq_iff_eq]
          constructor
          · intro h
            split at h
            · rename_i hc
              obtain ⟨u, rfl, rfl⟩ := ih.1 h
              exact ⟨c :: u, rfl, by rw [List.map_cons, hc]⟩
            · cases h
          · rintro ⟨u, hu, hmap⟩
            cases u with
            | nil => cases hmap
            | cons d u =>
                obtain ⟨rfl, rfl⟩ := List.cons.inj hu
                obtain ⟨hc, hmap⟩ := List.cons.inj hmap
                rw [if_pos hc]
                exact ih.2 ⟨u, rfl, hmap⟩

/-- A blank starts no word. -/
theorem afterLetters_eq_none_of_isBlank {word : List Char} (hne : word ≠ [])
    (hword : PlainLetters word) {c : Char} (hc : isBlank c = true) (rest : List Char) :
    afterLetters word (c :: rest) = none := by
  obtain ⟨w, word, rfl⟩ := List.exists_cons_of_ne_nil hne
  rw [afterLetters, if_neg]
  intro hsame
  have hletter : IsLetter c := by
    rw [IsLetter, beq_iff_eq.1 hsame]
    exact hword w List.mem_cons_self
  rw [hletter.classes.2.1] at hc
  cases hc

/-! ## Blanks at the ends -/

/-- A text is what is left of it when it is trimmed, between the blanks at its ends. -/
theorem takeWhile_append_trim_append (s : List Char) :
    s.takeWhile isBlank ++ (trim s ++ ((s.dropWhile isBlank).reverse.takeWhile isBlank).reverse) =
      s := by
  rw [trim, ← List.reverse_append, List.takeWhile_append_dropWhile, List.reverse_reverse,
    List.takeWhile_append_dropWhile]

/-- Trimming a text takes away blanks only. -/
theorem mem_trim {s : List Char} {c : Char} (hc : c ∈ s) (hblank : isBlank c = false) :
    c ∈ trim s := by
  have hapart : ∀ {gap : List Char}, c ∉ gap.takeWhile isBlank := fun hmem => by
    rw [List.mem_takeWhile_imp hmem] at hblank
    cases hblank
  rw [← takeWhile_append_trim_append s, List.mem_append, List.mem_append, List.mem_reverse] at hc
  exact (hc.resolve_left hapart).resolve_right hapart

/-- Nothing but the blanks at the end is cut off from a text that starts with no blank. -/
theorem trim_append_blanks {s gap : List Char} (hne : s ≠ []) (hfirst : StopsBefore isBlank s)
    (hlast : StopsBefore isBlank s.reverse) (hgap : Blanks gap) : trim (s ++ gap) = s := by
  rw [trim, (stopsBefore_append hne hfirst gap).dropWhile_eq, List.reverse_append,
    dropWhile_append_stop (fun c hc => hgap c (List.mem_reverse.1 hc)) hlast, List.reverse_reverse]

/-- A text that starts with no blank loses the blanks at its end when it is trimmed. -/
theorem exists_trim_append {s : List Char} (h : StopsBefore isBlank s) :
    ∃ gap, Blanks gap ∧ trim s ++ gap = s := by
  -- nothing is cut off at the start, so the rest of the text is what is cut off at the end
  refine ⟨(s.reverse.takeWhile isBlank).reverse, fun c hc => ?_, ?_⟩
  · exact List.mem_takeWhile_imp (List.mem_reverse.1 hc)
  · rw [trim, h.dropWhile_eq, ← List.reverse_append, List.takeWhile_append_dropWhile,
      List.reverse_reverse]

/-- The text in the middle is out of reach for `trim`: it stops at the first and at the last
character that is no blank. -/
theorem trim_append_cons {c d : Char} (hc : isBlank c = false) (hd : isBlank d = false)
    (front mid back : List Char) : trim (front ++ c :: (mid ++ d :: back)) =
      front.dropWhile isBlank ++ c :: (mid ++ d :: (back.reverse.dropWhile isBlank).reverse) := by
  have hfirst : StopsBefore isBlank (c :: (mid ++ d :: back)) := stopsBefore_cons.2 hc
  have hlast : StopsBefore isBlank (d :: (front.dropWhile isBlank ++ c :: mid).reverse) :=
    stopsBefore_cons.2 hd
  have hreverse : (front.dropWhile isBlank ++ c :: (mid ++ d :: back)).reverse =
      back.reverse ++ d :: (front.dropWhile isBlank ++ c :: mid).reverse := by
    simp
  rw [trim, hfirst.dropWhile_append, hreverse, hlast.dropWhile_append]
  simp

theorem trim_subset {s : List Char} : trim s ⊆ s := by
  intro c hc
  rw [trim, List.mem_reverse] at hc
  have hmem := List.mem_reverse.1 ((List.dropWhile_suffix _).subset hc)
  exact (List.dropWhile_suffix _).subset hmem

/-- A text with no blank at its ends is its own `trim`. -/
theorem trim_eq_self {s : List Char} (hfirst : StopsBefore isBlank s)
    (hlast : StopsBefore isBlank s.reverse) : trim s = s := by
  rw [trim, hfirst.dropWhile_eq, hlast.dropWhile_eq, List.reverse_reverse]

end FileClerk.Text
