import FileClerk.Proofs.Command.SizeGrammar

/-!
# Where size phrases stand

A size phrase stands in a text when a part of the text spells it and both ends of the part are word
boundaries (`StandsBetween`). The threshold of a text is the threshold of the leftmost phrase that
stands in it, and a text without such a phrase has none (`sizeThreshold_grammar`). Letters count in
either case, and digits and blanks of any script.

What stands around a phrase does not count. Text in front of it could only matter by starting a
phrase of its own that ends inside of the one behind it, and this does not happen: the letter `e` is
in every comparing word and nowhere else in a phrase, so a phrase that reaches over a comparing word
has this word as its own (`SizePhrase.Spelled.prefix_of_append`).
-/

set_option autoImplicit false

namespace FileClerk.Command

open FileClerk.Text

/-! ## Phrases in a text -/

/-- Some phrase is `Spelled` by `u`. -/
def IsSizePhrase (u : List Char) : Prop := ∃ p : SizePhrase, p.Spelled u

/-- The text `u` is a size phrase, and it starts and ends at a word boundary between `front` and
`back`. -/
structure StandsBetween (front u back : List Char) : Prop where
  isSizePhrase : IsSizePhrase u
  starts : isBoundary front.getLast? u.head? = true
  ends : isBoundary u.getLast? back.head? = true

/-- A size phrase `StandsBetween` two parts of the text. -/
def HasSizePhrase (text : List Char) : Prop :=
  ∃ front u back, text = front ++ (u ++ back) ∧ StandsBetween front u back

/-- The text `u` stands behind `front` in `text`, and no phrase starts further to the left. -/
structure LeftmostPhrase (text front u back : List Char) : Prop where
  text_eq : text = front ++ (u ++ back)
  stands : StandsBetween front u back
  least : ∀ front' u' back', text = front' ++ (u' ++ back') → StandsBetween front' u' back' →
    front.length ≤ front'.length

section Places

variable {text front u back : List Char} {p q : SizePhrase}

/-- A phrase has letters at both ends. -/
theorem SizePhrase.Spelled.any_ends (h : p.Spelled u) :
    u.head?.any isWordChar = true ∧ u.getLast?.any isWordChar = true := by
  constructor
  · obtain ⟨hword, -⟩ := h.wordLike_word
    obtain ⟨gap, than, gap', space, unit, -⟩ := h
    obtain ⟨c, more, hcons⟩ := List.exists_cons_of_ne_nil hword.ne_nil
    rw [hcons, List.cons_append, List.head?_cons, Option.any_some]
    exact hword.classes c (hcons ▸ List.mem_cons_self)
  · obtain ⟨c, hlast, hletter⟩ := h.exists_getLast?
    rw [hlast, Option.any_some]
    exact hletter.classes.1

/-- Around a phrase, the word boundaries `\b` are neighbours that are no word characters. -/
theorem standsBetween_iff :
    StandsBetween front u back ↔
      IsSizePhrase u ∧ front.getLast?.any isWordChar = false ∧ StopsBefore isWordChar back := by
  have hboundary : IsSizePhrase u →
      (isBoundary front.getLast? u.head? = true ↔ front.getLast?.any isWordChar = false) ∧
        (isBoundary u.getLast? back.head? = true ↔ StopsBefore isWordChar back) := by
    rintro ⟨p, hp⟩
    obtain ⟨hfirst, hlast⟩ := hp.any_ends
    rw [isBoundary, isBoundary, hfirst, hlast, StopsBefore]
    simp
  constructor
  · rintro ⟨hphrase, hstarts, hends⟩
    obtain ⟨hstart, hend⟩ := hboundary hphrase
    exact ⟨hphrase, hstart.1 hstarts, hend.1 hends⟩
  · rintro ⟨hphrase, hbefore, hback⟩
    obtain ⟨hstart, hend⟩ := hboundary hphrase
    exact ⟨hphrase, hstart.2 hbefore, hend.2 hback⟩

/-- What is read at a place is the phrase that stands there. -/
theorem sizePhrase?_eq_some_iff_stands {s : List Char} :
    sizePhrase? front.getLast? s = some p ↔
      ∃ u back, s = u ++ back ∧ p.Spelled u ∧ StandsBetween front u back := by
  rw [sizePhrase?_eq_some_iff]
  constructor
  · rintro ⟨hbefore, u, back, hs, hspelled, hback⟩
    exact ⟨u, back, hs, hspelled, standsBetween_iff.2 ⟨⟨p, hspelled⟩, hbefore, hback⟩⟩
  · rintro ⟨u, back, hs, hspelled, hstands⟩
    obtain ⟨-, hbefore, hback⟩ := standsBetween_iff.1 hstands
    exact ⟨hbefore, u, back, hs, hspelled, hback⟩

/-- The first reading of `sizePhrase?` is the `LeftmostPhrase`, as a search by `SIZE_PATTERN` finds
it. -/
theorem firstReading?_eq_some_iff_leftmost :
    firstReading? sizePhrase? none text = some p ↔
      ∃ front u back, LeftmostPhrase text front u back ∧ p.Spelled u := by
  rw [firstReading?_eq_some_iff]
  simp only [Option.or_none]
  constructor
  · rintro ⟨front, s, rfl, hread, hfirst⟩
    obtain ⟨u, back, rfl, hspelled, hstands⟩ := sizePhrase?_eq_some_iff_stands.1 hread
    refine ⟨front, u, back, ⟨rfl, hstands, fun front' u' back' heq hstands' => ?_⟩, hspelled⟩
    -- nothing is read further to the left
    by_contra hlt
    obtain ⟨q, hq⟩ := hstands'.isSizePhrase
    have hread' := sizePhrase?_eq_some_iff_stands.2 ⟨u', back', rfl, hq, hstands'⟩
    rw [hfirst front' _ heq (Nat.lt_of_not_le hlt)] at hread'
    cases hread'
  · rintro ⟨front, u, back, ⟨htext, hstands, hleast⟩, hspelled⟩
    refine ⟨front, u ++ back, htext,
      sizePhrase?_eq_some_iff_stands.2 ⟨u, back, rfl, hspelled, hstands⟩, ?_⟩
    intro front' s heq hlt
    rw [← Option.not_isSome_iff_eq_none, Option.isSome_iff_exists]
    rintro ⟨q, hq⟩
    obtain ⟨u', back', rfl, -, hstands'⟩ := sizePhrase?_eq_some_iff_stands.1 hq
    exact absurd (hleast front' u' back' heq hstands') (Nat.not_le.2 hlt)

/-- The predicate `HasSizePhrase` holds exactly if a search by `sizePhrase?` finds something. -/
theorem hasSizePhrase_iff :
    HasSizePhrase text ↔ ∃ p, firstReading? sizePhrase? none text = some p := by
  constructor
  · rintro ⟨front, u, back, rfl, hstands⟩
    obtain ⟨p, hp⟩ := hstands.isSizePhrase
    have hread := sizePhrase?_eq_some_iff_stands.2 ⟨u, back, rfl, hp, hstands⟩
    rw [← Option.isSome_iff_exists, ← Option.ne_none_iff_isSome]
    intro hnone
    have hnone' := firstReading?_eq_none_iff.1 hnone front (u ++ back) rfl
    rw [Option.or_none, hread] at hnone'
    cases hnone'
  · rintro ⟨p, hp⟩
    obtain ⟨front, u, back, hleftmost, -⟩ := firstReading?_eq_some_iff_leftmost.1 hp
    exact ⟨front, u, back, hleftmost.text_eq, hleftmost.stands⟩

end Places

/-! ## What stands around a phrase -/

section Around

variable {front u back v rest : List Char} {p q : SizePhrase}

/-- The letter `e` is in the comparing word of a phrase and in no other part of it. -/
theorem SizePhrase.Spelled.exists_tail (h : p.Spelled u) :
    ∃ tail, u = p.word ++ tail ∧ (∃ c ∈ p.word, foldLetter c = 'e') ∧
      ∀ c ∈ tail, foldLetter c ≠ 'e' := by
  obtain ⟨gap, than, gap', space, unit, ⟨w, hw, hword⟩, -, hblanks, hthan, -, hblanks', -, hdigits,
    hfraction, hspace, hunit⟩ := h
  have hall : ∀ w ∈ greaterWords ++ lessWords, 'e' ∈ w.toList := by decide
  obtain ⟨c, hc, hfold⟩ := List.mem_map.1 (hword ▸ hall w hw)
  refine ⟨_, rfl, ⟨c, hc, hfold⟩, fun d hd he => ?_⟩
  have hletter : IsLetter d := by
    rw [IsLetter, he]
    decide
  rcases List.mem_append.1 hd with hd | hd
  · exact not_isLetter_of_isBlank (hblanks d hd) hletter
  rcases List.mem_append.1 hd with hd | hd
  · have hmem : foldLetter d ∈ ['t', 'h', 'a', 'n'] := hthan ▸ List.mem_map_of_mem hd
    rw [he] at hmem
    exact absurd hmem (by decide)
  rcases List.mem_append.1 hd with hd | hd
  · exact not_isLetter_of_isBlank (hblanks' d hd) hletter
  · have hmem : foldLetter d ∈ p.unit.letters :=
      hunit ▸ List.mem_map_of_mem (mem_unit hdigits hfraction hspace hd hletter)
    have hunits : 'e' ∉ p.unit.letters := by cases p.unit <;> decide
    exact hunits (he ▸ hmem)

/-- A phrase that starts in front of another one, behind which a word starts, ends in front of
it. -/
theorem SizePhrase.Spelled.prefix_of_append (hp : p.Spelled u) (hq : q.Spelled v)
    (hne : front ≠ []) (hfront : front.getLast?.any isWordChar = false)
    (hrest : StopsBefore isWordChar rest) (heq : front ++ (u ++ back) = v ++ rest) :
    v <+: front := by
  rcases List.append_eq_append_iff.1 heq with ⟨more, hv, hmore⟩ | ⟨more, hv, -⟩
  · exfalso
    -- the comparing word behind the first text would lie in the phrase
    obtain ⟨tail, rfl, ⟨c, hc, hfold⟩, -⟩ := hp.exists_tail
    have hmem : c ∈ more := by
      rw [List.append_assoc] at hmore
      rcases List.append_eq_append_iff.1 hmore with ⟨further, rfl, -⟩ | ⟨further, hword, hrest'⟩
      · exact List.mem_append_left _ hc
      · cases further with
        | nil =>
            rw [List.append_nil] at hword
            exact hword ▸ hc
        | cons d further =>
            have hd := hp.wordLike_word.1.classes d (by simp [hword])
            rw [hrest', List.cons_append, stopsBefore_cons, hd] at hrest
            cases hrest
    -- so it is the comparing word of the phrase, and the first text would end inside of a word
    obtain ⟨tail', rfl, -, hnot⟩ := hq.exists_tail
    rcases List.append_eq_append_iff.1 hv with ⟨further, -, htail⟩ | ⟨further, hword, -⟩
    · exact hnot c (htail ▸ List.mem_append_right _ hmem) hfold
    · have hlast := List.getLast?_eq_some_getLast hne
      have hclass := hq.wordLike_word.1.classes (front.getLast hne)
        (hword ▸ List.mem_append_left _ (List.getLast_mem hne))
      rw [hlast, Option.any_some, hclass] at hfront
      cases hfront
  · exact hv ▸ List.prefix_append v more

/-- What stands around a phrase does not count, if the text in front has no phrase and both ends of
the phrase are ends of words. -/
theorem SizePhrase.Spelled.firstReading?_around (h : p.Spelled u) (hnone : ¬ HasSizePhrase front)
    (hfront : front.getLast?.any isWordChar = false) (hback : StopsBefore isWordChar back) :
    firstReading? sizePhrase? none (front ++ (u ++ back)) = some p := by
  rw [firstReading?_eq_some_iff]
  simp only [Option.or_none]
  refine ⟨front, u ++ back, rfl, h.read hfront hback, fun left s heq hlt => ?_⟩
  rw [← Option.not_isSome_iff_eq_none, Option.isSome_iff_exists]
  rintro ⟨q, hq⟩
  obtain ⟨hleft, v, rest, rfl, hspelled, hrest⟩ := sizePhrase?_eq_some_iff.1 hq
  obtain ⟨mid, rfl, hmid⟩ : ∃ mid, front = left ++ mid ∧ mid ++ (u ++ back) = v ++ rest := by
    rcases List.append_eq_append_iff.1 heq with ⟨mid, rfl, -⟩ | ⟨mid, hmid, hs⟩
    · rw [List.length_append] at hlt
      omega
    · exact ⟨mid, hmid, hs.symm⟩
  have hne : mid ≠ [] := by
    rintro rfl
    simp at hlt
  rw [List.getLast?_append, List.getLast?_eq_some_getLast hne, Option.some_or,
    ← List.getLast?_eq_some_getLast hne] at hfront
  -- a phrase that is read further to the left stands in the text in front
  obtain ⟨more, rfl⟩ := h.prefix_of_append hspelled hne hfront hrest hmid
  rw [List.append_assoc, List.append_cancel_left_eq] at hmid
  refine hnone ⟨left, v, more, rfl, standsBetween_iff.2 ⟨⟨q, hspelled⟩, hleft, ?_⟩⟩
  cases more with
  | nil => exact stopsBefore_nil _
  | cons c more =>
      rw [← hmid] at hrest
      exact stopsBefore_cons.2 (stopsBefore_cons.1 hrest)

end Around

/-! ## Thresholds -/

theorem sizeThreshold_congr {s t : List Char}
    (h : firstReading? sizePhrase? none s = firstReading? sizePhrase? none t) :
    sizeThreshold s = sizeThreshold t := by
  rw [sizeThreshold, sizeThreshold, h]

/-- The threshold `sizeThreshold` of a text of short numbers is there exactly if the text
`HasSizePhrase`. It is the threshold of the `LeftmostPhrase` by itself, and a phrase is spelled in
one way only. So the threshold of a phrase does not change when text is put around it, as long as no
phrase stands in front and the ends of the phrase stay ends of words. -/
theorem sizeThreshold_grammar {text : List Char} (hnumbers : ShortNumbers 900000 text) :
    (∃ threshold, sizeThreshold text = .ok threshold ∧
      (threshold.isSome = true ↔ HasSizePhrase text)) ∧
    (HasSizePhrase text → ∃ front u back, LeftmostPhrase text front u back) ∧
    (∀ front u back, LeftmostPhrase text front u back →
      sizeThreshold text = sizeThreshold u ∧ ∃! p : SizePhrase, p.Spelled u) ∧
    ∀ front u back, text = front ++ (u ++ back) → IsSizePhrase u → ¬ HasSizePhrase front →
      front.getLast?.any isWordChar = false → back.head?.any isWordChar = false →
      sizeThreshold text = sizeThreshold u := by
  refine ⟨?_, ?_, ?_, ?_⟩
  · cases hthreshold : sizeThreshold text with
    | error fault =>
        have hlarge := ((sizeThreshold_eq_error_iff text fault).1 hthreshold).2
        exact absurd hlarge (not_sizeTooLarge_of_shortNumbers hnumbers)
    | ok threshold =>
        exact ⟨threshold, rfl, (isSome_of_sizeThreshold hthreshold).trans hasSizePhrase_iff.symm⟩
  · intro hphrase
    obtain ⟨p, hp⟩ := hasSizePhrase_iff.1 hphrase
    obtain ⟨front, u, back, hleftmost, -⟩ := firstReading?_eq_some_iff_leftmost.1 hp
    exact ⟨front, u, back, hleftmost⟩
  · -- both texts have the same first reading, and the threshold depends on nothing else
    intro front u back hleftmost
    obtain ⟨p, hp⟩ := hleftmost.stands.isSizePhrase
    have hfirst := firstReading?_eq_some_iff_leftmost.2 ⟨front, u, back, hleftmost, hp⟩
    exact ⟨sizeThreshold_congr (hfirst.trans hp.firstReading?_self.symm), p, hp,
      fun q hq => hq.unique hp⟩
  · rintro front u back rfl ⟨p, hp⟩ hnone hfront hback
    have hfirst := hp.firstReading?_around hnone hfront hback
    exact sizeThreshold_congr (hfirst.trans hp.firstReading?_self.symm)

/-- The start of a phrase in front of a phrase, and another phrase behind it. -/
theorem sizeThreshold_grammar_crowded :
    ShortNumbers 900000 "more than 5 Bigger  than 2.5 MB, less than 1 gb".toList ∧
      IsSizePhrase "Bigger  than 2.5 MB".toList ∧ ¬ HasSizePhrase "more than 5 ".toList ∧
      sizeThreshold "more than 5 Bigger  than 2.5 MB, less than 1 gb".toList =
        sizeThreshold "Bigger  than 2.5 MB".toList := by
  have hnumbers : ShortNumbers 900000 "more than 5 Bigger  than 2.5 MB, less than 1 gb".toList :=
    .of_length_lt (by decide)
  have hphrase : IsSizePhrase "Bigger  than 2.5 MB".toList :=
    ⟨⟨"Bigger".toList, ['2'], ['5'], .mb⟩, .intro [' ', ' '] "than".toList [' '] [' ']
      "MB".toList ⟨"bigger", by decide, by decide⟩ (by decide) (by decide) (by decide) (by decide)
      (by decide) (by decide) (by decide) (by decide) (by decide) (by decide)⟩
  have hnone : ¬ HasSizePhrase "more than 5 ".toList := by
    have hread : firstReading? sizePhrase? none "more than 5 ".toList = none := by decide +kernel
    rw [hasSizePhrase_iff, hread]
    rintro ⟨p, hp⟩
    cases hp
  obtain ⟨-, -, -, haround⟩ := sizeThreshold_grammar hnumbers
  exact ⟨hnumbers, hphrase, hnone, haround "more than 5 ".toList "Bigger  than 2.5 MB".toList
    ", less than 1 gb".toList (by decide) hphrase hnone (by decide) (by decide)⟩

end FileClerk.Command
