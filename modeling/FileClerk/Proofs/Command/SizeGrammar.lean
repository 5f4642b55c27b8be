import FileClerk.Proofs.Command.Destination
import FileClerk.Proofs.Command.SizePhrase
import FileClerk.Proofs.Text.CharClass
import FileClerk.Proofs.Text.Piece

/-!
# The grammar of size phrases

A size phrase is a comparing word, "than", a number and a unit with blanks between them, in any
letter case. `SizePhrase.Spelled` says so of a text without reading it, and the reader accepts
exactly the texts that start with a spelled phrase at word boundaries (`sizePhrase?_eq_some_iff`).
The parts of the phrase are those that it was spelled with, so the reading is the only one.

A phrase ends in the letter of its unit and has no bracket in it. What follows a text therefore
changes no reading in the text as long as no phrase can end in it (`sizePhrase?_append`).
-/

set_option autoImplicit false

namespace FileClerk.Command

open FileClerk.Text FileClerk.Number

/-! ## The parts of a phrase -/

/-- Blanks are read when there is at least one, and all of them are. -/
theorem afterBlanks?_eq_some_iff {s rest : List Char} :
    afterBlanks? s = some rest ↔
      ∃ u, s = u ++ rest ∧ u ≠ [] ∧ Blanks u ∧ StopsBefore isBlank rest := by
  unfold afterBlanks?
  constructor
  · intro h
    split at h
    · rename_i hhead
      cases h
      refine ⟨s.takeWhile isBlank, List.takeWhile_append_dropWhile.symm, ?_,
        fun c hc => List.mem_takeWhile_imp hc, stopsBefore_dropWhile isBlank s⟩
      cases s with
      | nil => cases hhead
      | cons c s =>
          have hc : isBlank c = true := by simpa using hhead
          simp [hc]
    · cases h
  · rintro ⟨u, rfl, hne, hu, hrest⟩
    rw [if_pos, dropWhile_append_stop hu hrest]
    cases u with
    | nil => exact absurd rfl hne
    | cons c u => simpa using hu c List.mem_cons_self

/-- No word of the list is a prefix of another one, so an alternation over them need not go back. -/
def PrefixFree (words : List String) : Prop :=
  ∀ v ∈ words, ∀ w ∈ words, v.toList <+: w.toList → v = w

/-- The reader `takeWord?` reads one of several `PrefixFree` words exactly where the text starts
with it in any letter case. -/
theorem takeWord?_eq_some_iff {words : List String} (hfree : PrefixFree words)
    {s word rest : List Char} :
    takeWord? words s = some (word, rest) ↔
      s = word ++ rest ∧ ∃ w ∈ words, word.map foldLetter = w.toList := by
  -- the word as it is written in the text
  have hread : ∀ (w : String) (word rest : List Char),
      (afterLetters w.toList s).map (fun rest => (s.take w.length, rest)) = some (word, rest) ↔
        s = word ++ rest ∧ word.map foldLetter = w.toList := by
    intro w word rest
    simp only [Option.map_eq_some_iff, afterLetters_eq_some_iff, Prod.mk.injEq]
    have hlen : ∀ u : List Char, u.map foldLetter = w.toList → w.length = u.length := by
      intro u hu
      rw [← String.length_toList, ← hu, List.length_map]
    constructor
    · rintro ⟨_, ⟨u, rfl, hu⟩, hword, rfl⟩
      rw [hlen u hu, List.take_left] at hword
      exact hword ▸ ⟨rfl, hu⟩
    · rintro ⟨rfl, hu⟩
      exact ⟨rest, ⟨word, rfl, hu⟩, by rw [hlen word hu, List.take_left], rfl⟩
  rw [takeWord?, findSome?_eq_some_iff_of_unique]
  · simp only [hread]
    constructor
    · rintro ⟨w, hw, hs, hword⟩
      exact ⟨hs, w, hw, hword⟩
    · rintro ⟨hs, w, hw, hword⟩
      exact ⟨w, hw, hs, hword⟩
  · -- of two words that a text starts with, one starts the other
    rintro v hv w hw ⟨u, rest⟩ ⟨u', rest'⟩ hu hu'
    obtain ⟨rfl, hv'⟩ := (hread v u rest).1 hu
    obtain ⟨hs, hw'⟩ := (hread w u' rest').1 hu'
    have hsame : v = w := by
      rcases List.prefix_or_prefix_of_prefix (List.prefix_append u rest)
          (hs ▸ List.prefix_append u' rest') with hle | hle
      · exact hfree v hv w hw (hv' ▸ hw' ▸ hle.map foldLetter)
      · exact (hfree w hw v hv (hv' ▸ hw' ▸ hle.map foldLetter)).symm
    exact Option.some.inj (hu.symm.trans (hsame ▸ hu'))

/-- The text of `fraction` as it is written: a point in front of the digits, or nothing. -/
def pointed (fraction : List Char) : List Char :=
  match fraction with
  | [] => []
  | d :: more => '.' :: d :: more

theorem mem_pointed {fraction : List Char} {c : Char} (h : c ∈ pointed fraction) :
    c = '.' ∨ c ∈ fraction := by
  cases fraction with
  | nil => cases h
  | cons d more => exact List.mem_cons.1 h

/-- A fraction is read when the text starts with a point and a digit. -/
theorem takeFraction_spelled (s : List Char) :
    s = pointed (takeFraction s).1 ++ (takeFraction s).2 ∧
      ∀ c ∈ (takeFraction s).1, isDigit c = true := by
  unfold takeFraction
  split
  · rename_i rest
    split
    · exact ⟨rfl, by simp⟩
    · rename_i hne
      refine ⟨?_, fun c hc => List.mem_takeWhile_imp hc⟩
      cases hdigits : rest.takeWhile isDigit with
      | nil => exact absurd (by rw [hdigits]; rfl) hne
      | cons d more =>
          rw [pointed, List.cons_append, ← hdigits, List.takeWhile_append_dropWhile]
  · exact ⟨rfl, by simp⟩

/-- The reader `takeFraction` reads a fraction that is spelled out, if neither a point nor a digit
follows. -/
theorem takeFraction_append {fraction rest : List Char}
    (hfraction : ∀ c ∈ fraction, isDigit c = true) (hdigit : StopsBefore isDigit rest)
    (hpoint : StopsBefore (· == '.') rest) :
    takeFraction (pointed fraction ++ rest) = (fraction, rest) := by
  cases fraction with
  | nil =>
      cases rest with
      | nil => rfl
      | cons c rest =>
          have hc : c ≠ '.' := by simpa using stopsBefore_cons.1 hpoint
          simp [pointed, takeFraction, hc]
  | cons d more =>
      have htake := takeWhile_append_stop hfraction hdigit
      have hdrop := dropWhile_append_stop hfraction hdigit
      rw [pointed, List.cons_append, takeFraction]
      simp only [htake, hdrop, List.isEmpty_cons, Bool.false_eq_true, if_false]

/-- The letters of units tell the units apart at the start of a text. -/
theorem SizeUnit.eq_of_prefix {unit unit' : SizeUnit} {s : List Char}
    (h : unit.letters <+: s) (h' : unit'.letters <+: s) : unit = unit' := by
  have hapart : ∀ v ∈ all, ∀ w ∈ all, v.letters <+: w.letters → v = w := by decide
  have hall : ∀ v : SizeUnit, v ∈ all := by
    intro v
    cases v <;> decide
  rcases List.prefix_or_prefix_of_prefix h h' with hle | hle
  · exact hapart _ (hall unit) _ (hall unit') hle
  · exact (hapart _ (hall unit') _ (hall unit) hle).symm

/-- The text starts with `unit.letters` in any letter case and does not go on with a word character.
-/
def SizeUnit.Starts (unit : SizeUnit) (s : List Char) : Prop :=
  ∃ u rest, s = u ++ rest ∧ u.map foldLetter = unit.letters ∧ StopsBefore isWordChar rest

/-- The test that `takeUnit?` makes is `Starts`. -/
theorem SizeUnit.starts_iff (unit : SizeUnit) (s : List Char) :
    (match afterLetters unit.letters s with
      | some rest => !rest.head?.any isWordChar
      | none => false) = true ↔ unit.Starts s := by
  cases hread : afterLetters unit.letters s with
  | none =>
      simp only [Bool.false_eq_true, false_iff]
      rintro ⟨u, rest, hs, hu, -⟩
      rw [afterLetters_eq_some_iff.2 ⟨u, hs, hu⟩] at hread
      cases hread
  | some rest =>
      simp only [Bool.not_eq_true']
      constructor
      · intro hstop
        obtain ⟨u, hs, hu⟩ := afterLetters_eq_some_iff.1 hread
        exact ⟨u, rest, hs, hu, hstop⟩
      · rintro ⟨u, rest', hs, hu, hstop⟩
        rw [afterLetters_eq_some_iff.2 ⟨u, hs, hu⟩] at hread
        cases hread
        exact hstop

/-- A text starts with one unit at most. -/
theorem SizeUnit.Starts.unique {unit unit' : SizeUnit} {s : List Char} (h : unit.Starts s)
    (h' : unit'.Starts s) : unit = unit' := by
  obtain ⟨u, rest, rfl, hu, -⟩ := h
  obtain ⟨u', rest', hs, hu', -⟩ := h'
  -- the letters of both stand at the start of the same letters
  have hprefix : unit.letters <+: (u ++ rest).map foldLetter := by
    rw [← hu, List.map_append]
    exact List.prefix_append _ _
  have hprefix' : unit'.letters <+: (u ++ rest).map foldLetter := by
    rw [hs, ← hu', List.map_append]
    exact List.prefix_append _ _
  exact SizeUnit.eq_of_prefix hprefix hprefix'

/-- The reader `takeUnit?` reads the one unit with `Starts`. -/
theorem takeUnit?_eq_some_iff {s : List Char} {unit : SizeUnit} :
    takeUnit? s = some unit ↔ unit.Starts s := by
  have hsome : ∀ {unit : SizeUnit}, takeUnit? s = some unit → unit.Starts s := by
    intro unit h
    rw [takeUnit?, List.find?_eq_some_iff_append] at h
    exact (unit.starts_iff s).1 h.1
  refine ⟨hsome, fun h => ?_⟩
  cases hfound : takeUnit? s with
  | none =>
      rw [takeUnit?, List.find?_eq_none] at hfound
      have hmem : unit ∈ SizeUnit.all := by cases unit <;> decide
      exact absurd ((unit.starts_iff s).2 h) (hfound unit hmem)
  | some unit' => rw [h.unique (hsome hfound)]

/-! ## Phrases -/

/-- The text spells `p` as `SIZE_PATTERN` has it: the comparing word, `than`, the number and the
unit in order, in any letter case, with blanks between them; only in front of the unit there may be
none. -/
inductive SizePhrase.Spelled (p : SizePhrase) : List Char → Prop where
  | intro (gap than gap' space unit : List Char) :
      (∃ w ∈ greaterWords ++ lessWords, p.word.map foldLetter = w.toList) →
      gap ≠ [] → Blanks gap → than.map foldLetter = ['t', 'h', 'a', 'n'] →
      gap' ≠ [] → Blanks gap' → p.whole ≠ [] → (∀ c ∈ p.whole, isDigit c = true) →
      (∀ c ∈ p.fraction, isDigit c = true) → Blanks space →
      unit.map foldLetter = p.unit.letters →
      SizePhrase.Spelled p (p.word ++ (gap ++ (than ++ (gap' ++
        (p.whole ++ (pointed p.fraction ++ (space ++ unit)))))))

theorem prefixFree_comparingWords : PrefixFree (greaterWords ++ lessWords) := by
  unfold PrefixFree
  decide

theorem letters_units (unit : SizeUnit) : PlainLetters unit.letters := by
  cases unit <;> decide

theorem letters_comparingWords : ∀ v ∈ greaterWords ++ lessWords, PlainLetters v.toList := by
  decide

/-- What `sizePhrase?` reads is `Spelled` at the start of the text. -/
theorem spelled_of_sizePhrase? {before : Option Char} {s : List Char} {p : SizePhrase}
    (h : sizePhrase? before s = some p) :
    before.any isWordChar = false ∧
      ∃ u rest, s = u ++ rest ∧ p.Spelled u ∧ StopsBefore isWordChar rest := by
  unfold sizePhrase? at h
  split at h
  · cases h
  · rename_i hbefore
    simp only [Option.bind_eq_bind, Option.bind_eq_some_iff, Prod.exists] at h
    obtain ⟨word, s₁, hword, s₂, hgap, s₃, hthan, s₄, hgap', h⟩ := h
    split at h
    · cases h
    · rename_i hwhole
      simp only [Option.bind_eq_some_iff] at h
      obtain ⟨unit, hunit, hp⟩ := h
      cases hp
      obtain ⟨rfl, hcomparing⟩ := (takeWord?_eq_some_iff prefixFree_comparingWords).1 hword
      obtain ⟨gap, rfl, hne, hblanks, -⟩ := afterBlanks?_eq_some_iff.1 hgap
      obtain ⟨than, rfl, hletters⟩ := afterLetters_eq_some_iff.1 hthan
      obtain ⟨gap', rfl, hne', hblanks', -⟩ := afterBlanks?_eq_some_iff.1 hgap'
      obtain ⟨letters, rest, htail, hunitLetters, hrest⟩ := takeUnit?_eq_some_iff.1 hunit
      obtain ⟨hpointed, hfraction⟩ := takeFraction_spelled (s₄.dropWhile isDigit)
      refine ⟨by simpa using hbefore, _, rest, ?_,
        .intro gap than gap' ((takeFraction (s₄.dropWhile isDigit)).2.takeWhile isBlank) letters
          hcomparing hne hblanks hletters hne' hblanks' (by simpa using hwhole)
          (fun c hc => List.mem_takeWhile_imp hc) hfraction
          (fun c hc => List.mem_takeWhile_imp hc) hunitLetters, hrest⟩
      -- the number and the unit make up what is left
      have hs₄ : s₄ = s₄.takeWhile isDigit ++ (pointed (takeFraction (s₄.dropWhile isDigit)).1 ++
          ((takeFraction (s₄.dropWhile isDigit)).2.takeWhile isBlank ++ (letters ++ rest))) := by
        rw [← htail, List.takeWhile_append_dropWhile, ← hpointed, List.takeWhile_append_dropWhile]
      simp only [List.append_assoc]
      rw [← hs₄]

/-- The reader `sizePhrase?` reads a phrase that is `Spelled` at the start of a text, at word
boundaries. -/
theorem SizePhrase.Spelled.read {p : SizePhrase} {u : List Char} (h : p.Spelled u)
    {before : Option Char} (hbefore : before.any isWordChar = false) {rest : List Char}
    (hrest : StopsBefore isWordChar rest) : sizePhrase? before (u ++ rest) = some p := by
  obtain ⟨gap, than, gap', space, unit, hcomparing, hne, hblanks, hthan, hne', hblanks', hwhole,
    hdigits, hfraction, hspace, hunit⟩ := h
  have hthanNe : than ≠ [] := by
    rintro rfl
    cases hthan
  have hunitNe : unit ≠ [] := by
    rintro rfl
    cases hletters : p.unit <;> rw [hletters] at hunit <;> cases hunit
  -- each part stops the reader of the part before it
  obtain ⟨hblank, hdigit', hpoint'⟩ :=
    stopsBefore_letters hunitNe (isLetter_of_map (letters_units p.unit) hunit) rest
  have hdigit : StopsBefore isDigit (space ++ (unit ++ rest)) :=
    hdigit'.append fun c hc => (classes_of_isBlank (hspace c hc)).2.1
  have hpoint : StopsBefore (· == '.') (space ++ (unit ++ rest)) :=
    hpoint'.append fun c hc => (classes_of_isBlank (hspace c hc)).2.2
  have hpointed : StopsBefore isDigit (pointed p.fraction ++ (space ++ (unit ++ rest))) := by
    cases p.fraction with
    | nil => exact hdigit
    | cons d more => exact stopsBefore_cons.2 (by decide)
  have hnumber : StopsBefore isBlank
      (p.whole ++ (pointed p.fraction ++ (space ++ (unit ++ rest)))) :=
    stopsBefore_append hwhole (.of_forall fun c hc => isBlank_of_isDigit (hdigits c hc)) _
  have hthanStop := (stopsBefore_letters hthanNe (isLetter_of_map (by decide) hthan)
    (gap' ++ (p.whole ++ (pointed p.fraction ++ (space ++ (unit ++ rest)))))).1
  -- the parts are read one after another
  simp only [List.append_assoc]
  unfold sizePhrase?
  rw [if_neg (by simp [hbefore]), (takeWord?_eq_some_iff prefixFree_comparingWords).2
    ⟨rfl, hcomparing⟩]
  simp only [Option.bind_eq_bind, Option.bind_some]
  rw [afterBlanks?_eq_some_iff.2 ⟨gap, rfl, hne, hblanks, hthanStop⟩, Option.bind_some,
    afterLetters_eq_some_iff.2 ⟨than, rfl, hthan⟩, Option.bind_some,
    afterBlanks?_eq_some_iff.2 ⟨gap', rfl, hne', hblanks', hnumber⟩, Option.bind_some]
  rw [takeWhile_append_stop hdigits hpointed, dropWhile_append_stop hdigits hpointed,
    takeFraction_append hfraction hdigit hpoint, if_neg (by simpa using hwhole)]
  simp only [dropWhile_append_stop hspace hblank]
  rw [takeUnit?_eq_some_iff.2 ⟨unit, rest, rfl, hunit, hrest⟩, Option.bind_some]

/-- The reader `sizePhrase?` gives `p` exactly for the texts that start, at a word boundary, with a
text that is `p.Spelled` and ends at one. -/
theorem sizePhrase?_eq_some_iff {before : Option Char} {s : List Char} {p : SizePhrase} :
    sizePhrase? before s = some p ↔ before.any isWordChar = false ∧
      ∃ u rest, s = u ++ rest ∧ p.Spelled u ∧ StopsBefore isWordChar rest := by
  refine ⟨spelled_of_sizePhrase?, ?_⟩
  rintro ⟨hbefore, u, rest, rfl, hspelled, hrest⟩
  exact hspelled.read hbefore hrest

section Readings

variable {p : SizePhrase} {u : List Char}

/-- A phrase at the start of a text is its first reading. -/
theorem SizePhrase.Spelled.firstReading?_of_stops (h : p.Spelled u) {rest : List Char}
    (hrest : StopsBefore isWordChar rest) :
    firstReading? sizePhrase? none (u ++ rest) = some p :=
  firstReading?_eq_some (h.read rfl hrest)

theorem SizePhrase.Spelled.firstReading?_self (h : p.Spelled u) :
    firstReading? sizePhrase? none u = some p := by
  have hfirst := h.firstReading?_of_stops (stopsBefore_nil isWordChar)
  rwa [List.append_nil] at hfirst

/-- A text is `Spelled` for one phrase at most. -/
theorem SizePhrase.Spelled.unique {q : SizePhrase} (hp : p.Spelled u) (hq : q.Spelled u) :
    p = q :=
  Option.some.inj (hp.firstReading?_self.symm.trans hq.firstReading?_self)

end Readings

/-! ## What follows a phrase -/

namespace SizePhrase.Spelled

variable {p : SizePhrase} {u : List Char}

/-- A phrase ends in the letter that all units end in. -/
theorem getLast?_map (h : p.Spelled u) : u.getLast?.map foldLetter = some 'b' := by
  obtain ⟨gap, than, gap', space, unit, -, -, -, -, -, -, -, -, -, -, hunit⟩ := h
  have hlast : unit.getLast?.map foldLetter = some 'b' := by
    rw [← List.getLast?_map, hunit]
    cases p.unit <;> rfl
  obtain ⟨c, hc, -⟩ := Option.map_eq_some_iff.1 hlast
  have hall : ∀ front : List Char, (front ++ unit).getLast? = unit.getLast? := by
    intro front
    rw [List.getLast?_append, hc, Option.some_or]
  simp only [← List.append_assoc]
  rw [hall, hlast]

theorem ne_nil (h : p.Spelled u) : u ≠ [] := by
  rintro rfl
  have hlast := h.getLast?_map
  cases hlast

/-- So a phrase ends in a letter. -/
theorem exists_getLast? (h : p.Spelled u) : ∃ c, u.getLast? = some c ∧ IsLetter c := by
  obtain ⟨c, hlast, hc⟩ := Option.map_eq_some_iff.1 h.getLast?_map
  refine ⟨c, hlast, ?_⟩
  rw [IsLetter, hc]
  decide

/-- A comparing word is a word of letters. -/
theorem wordLike_word (h : p.Spelled u) : WordLike p.word ∧ ∀ c ∈ p.word, IsLetter c := by
  obtain ⟨gap, than, gap', space, unit, ⟨w, hw, hword⟩, -⟩ := h
  have hletters := isLetter_of_map (letters_comparingWords w hw) hword
  have hne : ∀ w ∈ greaterWords ++ lessWords, w.toList ≠ [] := by decide
  refine ⟨⟨?_, fun c hc => (hletters c hc).classes.1⟩, hletters⟩
  rintro hnil
  rw [hnil] at hword
  exact hne w hw hword.symm

/-- A phrase starts with a letter. -/
theorem stopsBefore (h : p.Spelled u) : StopsBefore isBlank u := by
  obtain ⟨hword, hletters⟩ := h.wordLike_word
  obtain ⟨gap, than, gap', space, unit, -⟩ := h
  exact (stopsBefore_letters hword.ne_nil hletters _).1

theorem isDigit_fraction (h : p.Spelled u) : ∀ c ∈ p.fraction, isDigit c = true := by
  cases h with
  | intro gap than gap' space unit _ _ _ _ _ _ _ _ hfraction => exact hfraction

/-- The only letters behind "than" are those of the unit. -/
theorem mem_unit {space unit : List Char} (hdigits : ∀ c ∈ p.whole, isDigit c = true)
    (hfraction : ∀ c ∈ p.fraction, isDigit c = true) (hspace : Blanks space) {c : Char}
    (hc : c ∈ p.whole ++ (pointed p.fraction ++ (space ++ unit))) (hletter : IsLetter c) :
    c ∈ unit := by
  simp only [List.mem_append] at hc
  rcases hc with hc | hc | hc | hc
  · exact absurd hletter (not_isLetter_of_isDigit (hdigits c hc))
  · rcases mem_pointed hc with rfl | hc
    · exact absurd hletter (by decide)
    · exact absurd hletter (not_isLetter_of_isDigit (hfraction c hc))
  · exact absurd hletter (not_isLetter_of_isBlank (hspace c hc))
  · exact hc

/-- A phrase consists of letters, blanks, digits and points. -/
theorem classes (h : p.Spelled u) :
    ∀ c ∈ u, IsLetter c ∨ isBlank c = true ∨ isDigit c = true ∨ c = '.' := by
  obtain ⟨gap, than, gap', space, unit, ⟨w, hw, hword⟩, -, hblanks, hthan, -, hblanks', -, hdigits,
    hfraction, hspace, hunit⟩ := h
  intro c hc
  simp only [List.mem_append] at hc
  rcases hc with hc | hc | hc | hc | hc | hc | hc | hc
  · exact Or.inl (isLetter_of_map (letters_comparingWords w hw) hword c hc)
  · exact Or.inr (Or.inl (hblanks c hc))
  · exact Or.inl (isLetter_of_map (by decide) hthan c hc)
  · exact Or.inr (Or.inl (hblanks' c hc))
  · exact Or.inr (Or.inr (Or.inl (hdigits c hc)))
  · exact Or.inr (Or.inr ((mem_pointed hc).symm.imp_left (hfraction c)))
  · exact Or.inr (Or.inl (hspace c hc))
  · exact Or.inl (isLetter_of_map (letters_units p.unit) hunit c hc)

/-- The letters of a phrase are those of `than`, of a comparing word and of a unit. -/
theorem exists_mem_of_isLetter (h : p.Spelled u) {c : Char} (hc : c ∈ u) (hletter : IsLetter c) :
    (∃ w ∈ "than" :: (greaterWords ++ lessWords), foldLetter c ∈ w.toList) ∨
      ∃ unit ∈ SizeUnit.all, foldLetter c ∈ unit.letters := by
  obtain ⟨gap, than, gap', space, unit, ⟨w, hw, hword⟩, -, hblanks, hthan, -, hblanks', -, hdigits,
    hfraction, hspace, hunit⟩ := h
  rcases List.mem_append.1 hc with hc | hc
  · exact Or.inl ⟨w, List.mem_cons_of_mem _ hw, hword ▸ List.mem_map_of_mem hc⟩
  rcases List.mem_append.1 hc with hc | hc
  · exact absurd hletter (not_isLetter_of_isBlank (hblanks c hc))
  rcases List.mem_append.1 hc with hc | hc
  · have hthan' : than.map foldLetter = "than".toList := hthan
    exact Or.inl ⟨"than", List.mem_cons_self, hthan' ▸ List.mem_map_of_mem hc⟩
  rcases List.mem_append.1 hc with hc | hc
  · exact absurd hletter (not_isLetter_of_isBlank (hblanks' c hc))
  · have hmem : c ∈ unit := mem_unit hdigits hfraction hspace hc hletter
    exact Or.inr ⟨p.unit, by cases p.unit <;> decide, hunit ▸ List.mem_map_of_mem hmem⟩

/-- A phrase has no bracket in it. -/
theorem bracketFree (h : p.Spelled u) : BracketFree u := by
  intro c hc
  rw [← Bool.not_eq_true]
  intro hbracket
  obtain ⟨hletter, hblank, hdigit, hpoint⟩ := classes_of_isBracket hbracket
  rcases h.classes c hc with hc | hc | hc | hc
  · exact hletter hc
  · exact hblank hc
  · exact hdigit hc
  · exact hpoint hc

end SizePhrase.Spelled

/-- The texts `mid` and `stop` are what follows a text, up to the next bracket and from there on. No
phrase ends in `mid`, and it does not start with a word character. -/
structure EndsPhrases (mid stop : List Char) : Prop where
  stops : StopsBefore isWordChar (mid ++ stop)
  letter : ∀ c ∈ mid, foldLetter c ≠ 'b'
  bracket : ∀ c ∈ stop.head?, isBracket c = true

/-- A bracket may follow at once. -/
theorem EndsPhrases.of_bracket {stop : List Char} (h : ∀ c ∈ stop.head?, isBracket c = true) :
    EndsPhrases [] stop where
  stops := by
    cases stop with
    | nil => exact stopsBefore_nil _
    | cons c stop => exact stopsBefore_cons.2 (isWordChar_of_isBracket (h c rfl))
  letter := by
    intro c hc
    cases hc
  bracket := h

/-- Blanks may follow up to the end of the text. -/
theorem EndsPhrases.of_blanks {gap : List Char} (h : Blanks gap) : EndsPhrases gap [] where
  stops := by
    rw [List.append_nil]
    exact .of_forall fun c hc => (classes_of_isBlank (h c hc)).1
  letter := by
    intro c hc hb
    have hletter : IsLetter c := by
      rw [IsLetter, hb]
      decide
    exact not_isLetter_of_isBlank (h c hc) hletter
  bracket := by
    intro c hc
    cases hc

/-- A phrase at the start of a text and what follows it lies in the text. -/
theorem SizePhrase.Spelled.prefix_of_endsPhrases {p : SizePhrase} {u rest s mid stop : List Char}
    (h : p.Spelled u) (heq : s ++ (mid ++ stop) = u ++ rest) (hends : EndsPhrases mid stop) :
    u <+: s := by
  obtain ⟨c, hlast, hc⟩ := Option.map_eq_some_iff.1 h.getLast?_map
  rcases List.append_eq_append_iff.1 heq with ⟨more, rfl, hmore⟩ | ⟨more, rfl, -⟩
  · cases more with
    | nil => exact (List.append_nil s).symm ▸ List.prefix_refl s
    | cons d more =>
        exfalso
        -- the last letter of the phrase stands in what follows the text
        have hmem : c ∈ d :: more := by
          rw [List.getLast?_append, List.getLast?_eq_some_getLast (List.cons_ne_nil d more)]
            at hlast
          exact List.mem_of_getLast? ((List.getLast?_eq_some_getLast _).trans hlast)
        rcases List.append_eq_append_iff.1 hmore with ⟨further, heq', hstop⟩ | ⟨further, heq', -⟩
        · cases further with
          | nil =>
              rw [List.append_nil] at heq'
              exact hends.letter c (heq' ▸ hmem) hc
          | cons e further =>
              -- the phrase would reach the bracket
              have hbracket := hends.bracket e (by rw [hstop]; rfl)
              have hfree := h.bracketFree e (by simp [heq'])
              rw [hbracket] at hfree
              cases hfree
        · exact hends.letter c (heq' ▸ List.mem_append_left _ hmem) hc
  · exact List.prefix_append u more

/-- The reader `sizePhrase?` reads the same in a text and in front of what `EndsPhrases`. -/
theorem sizePhrase?_append (before : Option Char) (s : List Char) {mid stop : List Char}
    (hends : EndsPhrases mid stop) :
    sizePhrase? before (s ++ (mid ++ stop)) = sizePhrase? before s := by
  apply Option.ext
  intro p
  rw [sizePhrase?_eq_some_iff, sizePhrase?_eq_some_iff]
  refine and_congr_right fun _ => ⟨?_, ?_⟩
  · rintro ⟨u, rest, heq, hspelled, hrest⟩
    obtain ⟨rest', rfl⟩ := hspelled.prefix_of_endsPhrases heq hends
    rw [List.append_assoc, List.append_cancel_left_eq] at heq
    refine ⟨u, rest', rfl, hspelled, ?_⟩
    cases rest' with
    | nil => exact stopsBefore_nil _
    | cons c rest' =>
        rw [← heq] at hrest
        exact stopsBefore_cons.2 (stopsBefore_cons.1 hrest)
  · rintro ⟨u, rest, rfl, hspelled, hrest⟩
    refine ⟨u, rest ++ (mid ++ stop), List.append_assoc _ _ _, hspelled, ?_⟩
    cases rest with
    | nil => exact hends.stops
    | cons c rest => exact stopsBefore_cons.2 (stopsBefore_cons.1 hrest)

theorem readsWordStarts_sizePhrase? : ReadsWordStarts sizePhrase? := by
  intro before s
  cases hbefore : before.any isWordChar with
  | true => rw [sizePhrase?, if_pos hbefore, if_pos rfl]
  | false => simp [sizePhrase?, hbefore]

theorem sizePhrase?_nil (before : Option Char) : sizePhrase? before [] = none := by
  rw [readsWordStarts_sizePhrase?]
  split
  · rfl
  · rfl

/-- No phrase starts with a blank. -/
theorem sizePhrase?_isBlank (c : Char) (rest : List Char) (hc : isBlank c = true) :
    sizePhrase? none (c :: rest) = none := by
  have hword : takeWord? (greaterWords ++ lessWords) (c :: rest) = none := by
    refine List.findSome?_eq_none_iff.2 fun w hw => ?_
    have hne : ∀ w ∈ greaterWords ++ lessWords, w.toList ≠ [] := by decide
    rw [afterLetters_eq_none_of_isBlank (hne w hw) (letters_comparingWords w hw) hc]
    rfl
  simp [sizePhrase?, hword]

/-- No phrase starts with a bracket. -/
theorem sizePhrase?_bracket {c : Char} (hc : isBracket c = true) (before : Option Char)
    (rest : List Char) : sizePhrase? before (c :: rest) = none := by
  have hends : EndsPhrases [] (c :: rest) := .of_bracket (by simpa using hc)
  exact (sizePhrase?_append before [] hends).trans (sizePhrase?_nil before)

/-- A text without the letter `b`, in which phrases end, has no phrase. -/
theorem firstReading?_sizePhrase?_of_letter {mid : List Char}
    (h : ∀ c ∈ mid, foldLetter c ≠ 'b') (before : Option Char) :
    firstReading? sizePhrase? before mid = none := by
  rw [← Option.not_isSome_iff_eq_none, Option.isSome_iff_exists]
  rintro ⟨p, hp⟩
  obtain ⟨front, back, rfl, hread⟩ := exists_of_firstReading? hp
  obtain ⟨-, u, rest, rfl, hspelled, -⟩ := sizePhrase?_eq_some_iff.1 hread
  obtain ⟨c, hc, hb⟩ := Option.map_eq_some_iff.1 hspelled.getLast?_map
  have hmem := List.mem_of_getLast? hc
  exact h c (by simp [hmem]) hb

/-- What no phrase can end in brings in none at the end of a text. -/
theorem EndsPhrases.firstReading?_append {mid : List Char} (h : EndsPhrases mid [])
    (s : List Char) :
    firstReading? sizePhrase? none (s ++ mid) = firstReading? sizePhrase? none s := by
  have happend := Text.firstReading?_append sizePhrase?_nil
    (fun before s => sizePhrase?_append before s h) none (s := s)
  rwa [List.append_nil, firstReading?_sizePhrase?_of_letter h.letter, Option.or_none] at happend

/-- Blanks in front of a text bring in no phrase. -/
theorem firstReading?_sizePhrase?_blanks_append {gap : List Char} (hgap : Blanks gap)
    (s : List Char) :
    firstReading? sizePhrase? none (gap ++ s) = firstReading? sizePhrase? none s :=
  readsWordStarts_sizePhrase?.firstReading?_blanks_append sizePhrase?_isBlank hgap s

/-- No phrase reaches over a bracket, so the first one stands on one side of `c`. -/
theorem firstReading?_sizePhrase?_append_bracket {c : Char} (hc : isBracket c = true)
    (front back : List Char) : firstReading? sizePhrase? none (front ++ c :: back) =
      (firstReading? sizePhrase? none front).or (firstReading? sizePhrase? none back) := by
  have hends : EndsPhrases [] (c :: back) := .of_bracket (by simpa using hc)
  have happend := firstReading?_append sizePhrase?_nil
    (fun before s => sizePhrase?_append before s hends) none (s := front)
  rw [List.nil_append, firstReading?_cons, sizePhrase?_bracket hc, Option.none_or] at happend
  rw [happend]
  congr 1
  -- a bracket counts as no neighbour
  refine firstReading?_congr (fun s => ?_) back
  rw [readsWordStarts_sizePhrase?, if_neg (by simp [isWordChar_of_isBracket hc])]

end FileClerk.Command
