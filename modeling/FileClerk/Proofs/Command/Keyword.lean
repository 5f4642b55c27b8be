import Mathlib.Data.Nat.Find
import FileClerk.Command.Intent
import FileClerk.Proofs.Text.Piece

/-!
# Where keywords stand

A keyword stands at a place of a text when the text goes on with it there and no word character
stands before it. `StandsAt` says so without a search, and `findStart` gives the least such place
(`findStart_eq_some_iff`). A keyword occurs in a text (`StartsWord`) when it stands at some place of
it, and `containsAny` tells whether one of several keywords occurs (`containsAny_iff`).

A keyword that consists of word characters does not reach over any other character, so a text in
two parts with such a character between them has the keywords of its parts
(`startsWord_append_cons`).

A whole word has no word character beside it on either side (`containsWord_iff`).
-/

set_option autoImplicit false

namespace FileClerk.Command

open FileClerk.Text

/-! ## Places -/

/-- The text `word` stands behind the first `n` characters of `s`, and the last of these is no word
character; `inWord` tells whether a word character stands before `s`. -/
def StandsAt (inWord : Bool) (word s : List Char) (n : Nat) : Prop :=
  ∃ front back, s = front ++ (word ++ back) ∧ front.length = n ∧
    (front.getLast?.map isWordChar).getD inWord = false

/-- The text `word` stands in `text` behind a word boundary, as the pattern `\bword` of
`keyword_position` finds it. -/
def StartsWord (word text : List Char) : Prop := ∃ n, StandsAt false word text n

theorem standsAt_zero_iff (inWord : Bool) (word s : List Char) :
    StandsAt inWord word s 0 ↔ inWord = false ∧ word <+: s := by
  constructor
  · rintro ⟨front, back, rfl, hlen, hfree⟩
    obtain rfl := List.eq_nil_of_length_eq_zero hlen
    exact ⟨hfree, back, rfl⟩
  · rintro ⟨hfree, back, rfl⟩
    exact ⟨[], back, rfl, rfl, hfree⟩

theorem standsAt_succ_iff (inWord : Bool) (word : List Char) (c : Char) (rest : List Char)
    (n : Nat) :
    StandsAt inWord word (c :: rest) (n + 1) ↔ StandsAt (isWordChar c) word rest n := by
  constructor
  · rintro ⟨front, back, heq, hlen, hfree⟩
    cases front with
    | nil => simp at hlen
    | cons d front =>
        obtain ⟨rfl, rfl⟩ := List.cons.inj heq
        -- the character left out is the last one before the word, or it is not
        refine ⟨front, back, rfl, by simpa using hlen, ?_⟩
        cases front with
        | nil => exact hfree
        | cons e front => rwa [List.getLast?_cons_cons] at hfree
  · rintro ⟨front, back, rfl, rfl, hfree⟩
    refine ⟨c :: front, back, rfl, rfl, ?_⟩
    cases front with
    | nil => exact hfree
    | cons d front => rwa [List.getLast?_cons_cons]

theorem not_standsAt_nil_succ (inWord : Bool) (word : List Char) (n : Nat) :
    ¬ StandsAt inWord word [] (n + 1) := by
  rintro ⟨front, back, heq, hlen, -⟩
  have hnil : front = [] := (List.append_eq_nil_iff.1 heq.symm).1
  simp [hnil] at hlen

/-! ## The first place -/

/-- The function `findStart` gives the least place at which the word stands. -/
theorem findStart_eq_some_iff (word : List Char) (inWord : Bool) (s : List Char) (n : Nat) :
    findStart word inWord s = some n ↔
      StandsAt inWord word s n ∧ ∀ m < n, ¬ StandsAt inWord word s m := by
  induction s generalizing inWord n with
  | nil =>
      cases n with
      | zero => simp [findStart, standsAt_zero_iff]
      | succ n => simp [findStart, not_standsAt_nil_succ]
  | cons c rest ih =>
      by_cases hhere : inWord = false ∧ word <+: c :: rest
      · -- the word stands at the very start, and no place is less
        have hfound : findStart word inWord (c :: rest) = some 0 := by
          simp [findStart, hhere.1, List.isPrefixOf_iff_prefix.2 hhere.2]
        rw [hfound]
        cases n with
        | zero => simp [standsAt_zero_iff, hhere]
        | succ n =>
            simp only [Option.some.injEq, Nat.zero_ne_add_one, false_iff, not_and]
            intro _ hleast
            exact hleast 0 (Nat.succ_pos n) ((standsAt_zero_iff _ _ _).2 hhere)
      · -- the places are those of the rest, moved by one
        have hfound : findStart word inWord (c :: rest) =
            (findStart word (isWordChar c) rest).map (· + 1) := by
          simp only [findStart]
          rw [if_neg]
          simpa using hhere
        rw [hfound]
        cases n with
        | zero =>
            simp only [Option.map_eq_some_iff, Nat.add_eq_zero_iff, Nat.succ_ne_self, and_false,
              exists_false, false_iff, not_and]
            intro hstands
            exact absurd ((standsAt_zero_iff _ _ _).1 hstands) hhere
        | succ n =>
            have hsome : (findStart word (isWordChar c) rest).map (· + 1) = some (n + 1) ↔
                findStart word (isWordChar c) rest = some n := by
              simp
            rw [hsome, ih, standsAt_succ_iff]
            constructor
            · rintro ⟨hstands, hleast⟩
              refine ⟨hstands, fun m hm => ?_⟩
              cases m with
              | zero => exact fun h => hhere ((standsAt_zero_iff _ _ _).1 h)
              | succ m =>
                  rw [standsAt_succ_iff]
                  exact hleast m (by omega)
            · rintro ⟨hstands, hleast⟩
              refine ⟨hstands, fun m hm => ?_⟩
              rw [← standsAt_succ_iff inWord]
              exact hleast (m + 1) (by omega)

/-- The search succeeds when the word stands somewhere. -/
theorem findStart_isSome_iff (word : List Char) (inWord : Bool) (s : List Char) :
    (findStart word inWord s).isSome = true ↔ ∃ n, StandsAt inWord word s n := by
  classical
  constructor
  · intro h
    obtain ⟨n, hn⟩ := Option.isSome_iff_exists.1 h
    exact ⟨n, ((findStart_eq_some_iff word inWord s n).1 hn).1⟩
  · intro h
    have hleast := (findStart_eq_some_iff word inWord s (Nat.find h)).2
      ⟨Nat.find_spec h, fun m hm => Nat.find_min h hm⟩
    rw [hleast]
    rfl

/-! ## Keywords -/

theorem startsWord_iff (word text : List Char) :
    StartsWord word text ↔ (findStart word false text).isSome = true :=
  (findStart_isSome_iff word false text).symm

instance (word text : List Char) : Decidable (StartsWord word text) :=
  decidable_of_iff _ (startsWord_iff word text).symm

/-- The function `containsAny` tells whether some `w` in `words`, in lower case, starts a word of
the text. -/
theorem containsAny_iff (text : List Char) (words : List String) :
    containsAny text words = true ↔ ∃ w ∈ words, StartsWord (lower w.toList) text := by
  simp only [containsAny, List.any_eq_true, keywordPosition, startsWord_iff]

/-- The list `typeWords` has the words of the vocabulary that start a word of the text. -/
theorem mem_typeWords {text : List Char} {vocabulary : List String} {w : String} :
    w ∈ typeWords text vocabulary ↔ w ∈ vocabulary ∧ StartsWord (lower w.toList) text := by
  simp only [typeWords, List.mem_map, List.mem_mergeSort, List.mem_filterMap, startsWord_iff,
    keywordPosition]
  constructor
  · rintro ⟨⟨n, w'⟩, ⟨v, hv, hplace⟩, rfl⟩
    obtain ⟨m, hm, heq⟩ := Option.map_eq_some_iff.1 hplace
    obtain ⟨rfl, rfl⟩ := Prod.mk.inj heq
    exact ⟨hv, by simp [hm]⟩
  · rintro ⟨hw, hsome⟩
    obtain ⟨n, hn⟩ := Option.isSome_iff_exists.1 hsome
    exact ⟨(n, w), ⟨w, hw, by simp [hn]⟩, rfl⟩

/-! ## Keywords in separated texts -/

/-- A word without a separating character starts a word on one side of it. -/
theorem startsWord_append_separator {word : List Char} (hne : word ≠ []) {c : Char}
    (hc : isWordChar c = false) (hword : c ∉ word) (front back : List Char) :
    StartsWord word (front ++ c :: back) ↔ StartsWord word front ∨ StartsWord word back := by
  have hapart : ∀ {d : Char}, d ∈ word → d ≠ c := by
    rintro d hd rfl
    exact hword hd
  constructor
  · rintro ⟨n, left, right, heq, -, hfree⟩
    rcases List.append_eq_append_iff.1 heq with ⟨more, rfl, hmore⟩ | ⟨more, rfl, hmore⟩
    · cases more with
      | nil =>
          -- the word would start with the separating character
          obtain ⟨d, word', rfl⟩ := List.exists_cons_of_ne_nil hne
          rw [List.nil_append, List.cons_append] at hmore
          exact absurd (List.cons.inj hmore).1.symm (hapart List.mem_cons_self)
      | cons d more =>
          obtain ⟨rfl, rfl⟩ := List.cons.inj hmore
          refine Or.inr ⟨more.length, more, right, rfl, rfl, ?_⟩
          cases more with
          | nil => rfl
          | cons e more =>
              rwa [List.getLast?_append, List.getLast?_cons_cons,
                List.getLast?_eq_some_getLast (List.cons_ne_nil e more), Option.some_or] at hfree
    · rcases List.append_eq_append_iff.1 hmore with ⟨further, rfl, -⟩ | ⟨further, hfurther, hback⟩
      · exact Or.inl ⟨left.length, left, further, by simp, rfl, hfree⟩
      · cases further with
        | nil =>
            rw [List.append_nil] at hfurther
            exact Or.inl ⟨left.length, left, [], by simp [hfurther], rfl, hfree⟩
        | cons d further =>
            obtain ⟨rfl, -⟩ := List.cons.inj hback
            exact absurd rfl (hapart (hfurther ▸ List.mem_append_right _ List.mem_cons_self))
  · rintro (⟨n, left, right, rfl, -, hfree⟩ | ⟨n, left, right, rfl, -, hfree⟩)
    · exact ⟨left.length, left, right ++ c :: back, by simp, rfl, hfree⟩
    · refine ⟨_, front ++ c :: left, right, by simp, rfl, ?_⟩
      cases left with
      | nil => simp [hc]
      | cons d left =>
          rwa [List.getLast?_append, List.getLast?_cons_cons,
            List.getLast?_eq_some_getLast (List.cons_ne_nil d left), Option.some_or]

/-- A keyword of word characters stands on one side of any `c` that is none. -/
theorem startsWord_append_cons {word : List Char} (hword : WordLike word) {c : Char}
    (hc : isWordChar c = false) (front back : List Char) :
    StartsWord word (front ++ c :: back) ↔ StartsWord word front ∨ StartsWord word back := by
  refine startsWord_append_separator hword.ne_nil hc (fun hmem => ?_) front back
  rw [hword.classes c hmem] at hc
  cases hc

theorem not_startsWord_nil {word : List Char} (hne : word ≠ []) : ¬ StartsWord word [] := by
  rintro ⟨n, left, right, heq, -⟩
  obtain ⟨-, hnil⟩ := List.append_eq_nil_iff.1 heq.symm
  exact hne (List.append_eq_nil_iff.1 hnil).1

/-- What a text starts with starts a word of it. -/
theorem StartsWord.at_start {word text : List Char} (h : word <+: text) : StartsWord word text :=
  ⟨0, (standsAt_zero_iff _ _ _).2 ⟨rfl, h⟩⟩

/-- Word characters alone start one word. -/
theorem startsWord_iff_prefix {word text : List Char} (htext : ∀ c ∈ text, isWordChar c = true) :
    StartsWord word text ↔ word <+: text := by
  constructor
  · rintro ⟨n, front, back, rfl, -, hfree⟩
    -- nothing stands in front, since it would end in a word character
    have hfront : front = [] := by
      by_contra hne
      rw [List.getLast?_eq_some_getLast hne, Option.map_some, Option.getD_some,
        htext _ (List.mem_append_left _ (List.getLast_mem hne))] at hfree
      cases hfree
    rw [hfront]
    exact List.prefix_append word back
  · exact .at_start

/-- Blanks at the ends bring in no word. -/
theorem startsWord_append_blanks {word : List Char} (hword : WordLike word) (text : List Char)
    {gap : List Char} (hgap : Blanks gap) :
    StartsWord word (text ++ gap) ↔ StartsWord word text := by
  induction gap generalizing text with
  | nil => rw [List.append_nil]
  | cons c gap ih =>
      have hrest : ¬ StartsWord word gap := by
        have hempty := ih [] fun d hd => hgap d (List.mem_cons_of_mem _ hd)
        rw [List.nil_append] at hempty
        exact fun h => not_startsWord_nil hword.ne_nil (hempty.1 h)
      rw [startsWord_append_cons hword (classes_of_isBlank (hgap c List.mem_cons_self)).1]
      exact or_iff_left hrest

theorem startsWord_blanks_append {word : List Char} (hword : WordLike word) (text : List Char)
    {gap : List Char} (hgap : Blanks gap) :
    StartsWord word (gap ++ text) ↔ StartsWord word text := by
  induction gap with
  | nil => rfl
  | cons c gap ih =>
      obtain ⟨hc, hrest⟩ := List.forall_mem_cons.1 hgap
      have hfirst := startsWord_append_cons hword (classes_of_isBlank hc).1 [] (gap ++ text)
      rw [List.nil_append, or_iff_right (not_startsWord_nil hword.ne_nil), ih hrest] at hfirst
      exact hfirst

/-- A word without blanks starts a word on one side of a gap. -/
theorem startsWord_append_gap {word : List Char} (hword : Unbroken word) {gap : List Char}
    (hne : gap ≠ []) (hgap : Blanks gap) (front back : List Char) :
    StartsWord word (front ++ (gap ++ back)) ↔ StartsWord word front ∨ StartsWord word back := by
  induction gap generalizing front with
  | nil => exact absurd rfl hne
  | cons c gap ih =>
      have hblank := hgap c List.mem_cons_self
      rw [List.cons_append, startsWord_append_separator hword.ne_nil (classes_of_isBlank hblank).1
        (hword.notMem_of_isBlank hblank)]
      -- the rest of the gap is empty, or it has no word before it
      by_cases hrest : gap = []
      · rw [hrest, List.nil_append]
      · have hmore := ih hrest (fun d hd => hgap d (List.mem_cons_of_mem _ hd)) []
        rw [List.nil_append, or_iff_right (not_startsWord_nil hword.ne_nil)] at hmore
        rw [hmore]

/-! ## Whole words -/

/-- The text `v` stands in the text with no word character beside it, as `\bv\b` finds it. -/
def HasWord (v text : List Char) : Prop :=
  ∃ front back, text = front ++ (v ++ back) ∧ front.getLast?.any isWordChar = false ∧
    StopsBefore isWordChar back

theorem standsAlone_iff {v : List Char} (hv : WordLike v) (before : Option Char) (s : List Char) :
    standsAlone v before s = true ↔
      before.any isWordChar = false ∧ ∃ back, s = v ++ back ∧ StopsBefore isWordChar back := by
  obtain ⟨c, more, hcons⟩ := List.exists_cons_of_ne_nil hv.ne_nil
  have hfirst : isWordChar c = true := hv.classes c (hcons ▸ List.mem_cons_self)
  have hlast : ((v.getLast?).or before).any isWordChar = true := by
    rw [List.getLast?_eq_some_getLast hv.ne_nil, Option.some_or, Option.any_some]
    exact hv.classes _ (List.getLast_mem hv.ne_nil)
  rw [standsAlone, Bool.and_eq_true, Bool.and_eq_true, List.isPrefixOf_iff_prefix]
  constructor
  · rintro ⟨⟨⟨back, rfl⟩, hbefore⟩, hback⟩
    rw [isBoundary, hcons, List.cons_append, List.head?_cons, Option.any_some, hfirst] at hbefore
    rw [isBoundary, hlast, List.drop_left] at hback
    exact ⟨by simpa using hbefore, back, rfl, by simpa [StopsBefore] using hback⟩
  · rintro ⟨hbefore, back, rfl, hback⟩
    rw [isBoundary, isBoundary, hlast, List.drop_left, hbefore]
    refine ⟨⟨List.prefix_append v back, ?_⟩, ?_⟩
    · simp [hcons, hfirst]
    · rw [StopsBefore] at hback
      simp [hback]

theorem containsWordAfter_iff {v : List Char} (hv : WordLike v) (before : Option Char)
    (s : List Char) : containsWordAfter v before s = true ↔
      ∃ front back, s = front ++ (v ++ back) ∧
        (front.getLast?.or before).any isWordChar = false ∧ StopsBefore isWordChar back := by
  induction s generalizing before with
  | nil =>
      rw [containsWordAfter, standsAlone_iff hv]
      constructor
      · rintro ⟨hbefore, back, hs, hback⟩
        exact ⟨[], back, hs, hbefore, hback⟩
      · rintro ⟨front, back, hs, hbefore, hback⟩
        obtain ⟨rfl, hs'⟩ := List.append_eq_nil_iff.1 hs.symm
        exact ⟨hbefore, back, hs'.symm, hback⟩
  | cons c rest ih =>
      rw [containsWordAfter, Bool.or_eq_true, standsAlone_iff hv, ih]
      constructor
      · rintro (⟨hbefore, back, hs, hback⟩ | ⟨front, back, rfl, hbefore, hback⟩)
        · exact ⟨[], back, hs, hbefore, hback⟩
        · refine ⟨c :: front, back, rfl, ?_, hback⟩
          rwa [getLast?_cons_or]
      · rintro ⟨front, back, hs, hbefore, hback⟩
        cases front with
        | nil => exact Or.inl ⟨hbefore, back, hs, hback⟩
        | cons d front =>
            obtain ⟨rfl, hrest⟩ := List.cons.inj hs
            rw [getLast?_cons_or] at hbefore
            exact Or.inr ⟨front, back, hrest, hbefore, hback⟩

/-- The test `containsWord` decides `HasWord`. -/
theorem containsWord_iff {v : String} (hv : WordLike v.toList) (text : List Char) :
    containsWord text v = true ↔ HasWord v.toList text := by
  rw [containsWord, containsWordAfter_iff hv, HasWord]
  simp only [Option.or_none]

end FileClerk.Command
