import FileClerk.Proofs.Command.BracketGroup

/-!
# Taking destinations out of a text

A text that ends in a bracket group and has no other brackets loses the group
(`blankOut_bracketGroup`), and what leads to the group, as in "to [Archive]", makes no folder phrase
with the text before it (`folderPhrase_append_groupLead`). So a text without a folder phrase is left
as it is, with the lead of the group behind it (`stripDestination_append_group`).

A reader of folder phrases looks at up to five words. Whether it finds a name depends on the words
alone (`isSome_nameAfterArticle?`), and the lead adds one word at most, which is neither an article
nor "new" nor a noun.
-/

set_option autoImplicit false

namespace FileClerk.Command

open FileClerk.Text

/-! ## Folder phrases in longer texts -/

/-- The list `words` starts with a name and a noun behind it. -/
def namesBeforeNoun (words : List (List Char)) : Bool :=
  words[1]?.any (isOneOf folderNouns) || words[2]?.any (isOneOf folderNouns)

/-- The list `words` starts with a name and a noun behind it, perhaps behind `new`. -/
def namesAfterNew (words : List (List Char)) : Bool :=
  words[0]?.any (spells placeholder) && namesBeforeNoun (words.drop 1) || namesBeforeNoun words

/-- The list `words` starts with a name and a noun behind it, perhaps behind an article and `new`.
-/
def namesAfterArticle (words : List (List Char)) : Bool :=
  words[0]?.any (isOneOf articles) && namesAfterNew (words.drop 1) || namesAfterNew words

section Names

variable (run : List (List Char × List Char))

theorem isSome_nameBeforeNoun? :
    (nameBeforeNoun? run).isSome = namesBeforeNoun (run.map Prod.fst) := by
  match run with
  | [] => rfl
  | [_] => rfl
  | [_, (second, _)] =>
      cases hsecond : isOneOf folderNouns second <;>
        simp [nameBeforeNoun?, namesBeforeNoun, hsecond]
  | _ :: (second, _) :: (third, _) :: _ =>
      cases hsecond : isOneOf folderNouns second <;> cases hthird : isOneOf folderNouns third <;>
        simp [nameBeforeNoun?, namesBeforeNoun, hsecond, hthird]

theorem isSome_nameAfterNew? :
    (nameAfterNew? run).isSome = namesAfterNew (run.map Prod.fst) := by
  cases run with
  | nil => rfl
  | cons first more =>
      have hmore := isSome_nameBeforeNoun? more
      have hall := isSome_nameBeforeNoun? (first :: more)
      rw [List.map_cons] at hall ⊢
      cases hnew : spells placeholder first.1 <;>
        simp [nameAfterNew?, namesAfterNew, hnew, hmore, hall]

theorem isSome_nameAfterArticle? :
    (nameAfterArticle? run).isSome = namesAfterArticle (run.map Prod.fst) := by
  cases run with
  | nil => rfl
  | cons first more =>
      have hmore := isSome_nameAfterNew? more
      have hall := isSome_nameAfterNew? (first :: more)
      rw [List.map_cons] at hall ⊢
      cases harticle : isOneOf articles first.1 <;>
        simp [nameAfterArticle?, namesAfterArticle, harticle, hmore, hall]

end Names

/-- Without a noun there is no name. -/
theorem namesAfterArticle_eq_false {words : List (List Char)}
    (h : ∀ w ∈ words, isOneOf folderNouns w = false) : namesAfterArticle words = false := by
  have hplace : ∀ m n : Nat, (words.drop m)[n]?.any (isOneOf folderNouns) = false := by
    intro m n
    cases hw : (words.drop m)[n]? with
    | none => rfl
    | some w => exact h w (List.mem_of_mem_drop (List.mem_of_getElem? hw))
  have hbefore : ∀ m : Nat, namesBeforeNoun (words.drop m) = false := by
    intro m
    rw [namesBeforeNoun, hplace, hplace, Bool.or_false]
  have hafter : ∀ m : Nat, namesAfterNew (words.drop m) = false := by
    intro m
    rw [namesAfterNew, List.drop_drop, hbefore, hbefore, Bool.and_false, Bool.or_false]
  have hwhole := hafter 0
  rw [List.drop_zero] at hwhole
  rw [namesAfterArticle, hafter, hwhole, Bool.and_false, Bool.or_false]

/-- The first words of a text are made up of its characters. -/
theorem subset_of_mem_wordRun {count : Nat} {s word : List Char}
    (h : word ∈ (wordRun count s).map Prod.fst) : word ⊆ s := by
  induction count generalizing s with
  | zero => cases h
  | succ count ih =>
      rw [wordRun] at h
      split at h
      · cases h
      · rcases List.mem_cons.1 h with rfl | hmore
        · exact (List.takeWhile_prefix _).subset
        · exact fun c hc => (List.dropWhile_suffix _).subset
            ((List.dropWhile_suffix _).subset (ih hmore hc))

/-- A further word without the property changes nothing about the words at a place. -/
theorem any_getElem?_append {p : List Char → Bool} {word : List Char} (h : p word = false)
    (words : List (List Char)) (n : Nat) :
    (words ++ [word])[n]?.any p = words[n]?.any p := by
  rcases Nat.lt_or_ge n words.length with hlt | hle
  · rw [List.getElem?_append_left hlt]
  · rw [List.getElem?_append_right hle, List.getElem?_eq_none hle]
    cases n - words.length with
    | zero => simpa using h
    | succ m => rfl

/-- A word that does not count as the first one changes nothing at the end of words whose first one
may be left out. -/
theorem optionalFirst_append {p : List Char → Bool} {f : List (List Char) → Bool}
    {word : List Char} (hword : p word = false) (hf : ∀ words, f (words ++ [word]) = f words)
    (words : List (List Char)) :
    ((words ++ [word])[0]?.any p && f ((words ++ [word]).drop 1) || f (words ++ [word])) =
      (words[0]?.any p && f (words.drop 1) || f words) := by
  rw [any_getElem?_append hword, hf]
  cases words with
  | nil => rfl
  | cons first more =>
      rw [List.cons_append, List.drop_one, List.drop_one, List.tail_cons, List.tail_cons, hf]

/-- A word that is neither an article nor `new` nor a noun makes no name at the end. -/
theorem namesAfterArticle_append {word : List Char} (harticle : isOneOf articles word = false)
    (hnew : spells placeholder word = false) (hnoun : isOneOf folderNouns word = false)
    (words : List (List Char)) :
    namesAfterArticle (words ++ [word]) = namesAfterArticle words := by
  have hbefore : ∀ words, namesBeforeNoun (words ++ [word]) = namesBeforeNoun words := by
    intro words
    rw [namesBeforeNoun, namesBeforeNoun, any_getElem?_append hnoun, any_getElem?_append hnoun]
  have hafter : ∀ words, namesAfterNew (words ++ [word]) = namesAfterNew words :=
    optionalFirst_append hnew hbefore
  exact optionalFirst_append harticle hafter words

theorem letters_prepositions : ∀ v ∈ prepositions, PlainLetters v.toList := by
  decide

/-- The text behind `preposition` and the blanks that must follow it. -/
def afterWord? (s : List Char) (preposition : String) : Option (List Char) :=
  match afterLetters preposition.toList s with
  | some rest => if rest.head?.any isBlank then some (rest.dropWhile isBlank) else none
  | none => none

theorem afterPreposition?_eq (s : List Char) :
    afterPreposition? s = prepositions.findSome? (afterWord? s) := rfl

/-- A preposition is read with the blanks behind it. -/
theorem afterWord?_eq_some_iff {s rest : List Char} {w : String} :
    afterWord? s w = some rest ↔ ∃ u more, s = u ++ more ∧ u.map foldLetter = w.toList ∧
      more.head?.any isBlank = true ∧ rest = more.dropWhile isBlank := by
  unfold afterWord?
  constructor
  · intro h
    split at h
    · rename_i more hmore
      split at h
      · rename_i hblank
        obtain ⟨u, rfl, hu⟩ := afterLetters_eq_some_iff.1 hmore
        exact ⟨u, more, rfl, hu, hblank, (Option.some.inj h).symm⟩
      · cases h
    · cases h
  · rintro ⟨u, more, hs, hu, hblank, rfl⟩
    rw [afterLetters_eq_some_iff.2 ⟨u, hs, hu⟩]
    exact if_pos hblank

/-- The reader `afterPreposition?` reads one of `prepositions` with the blanks behind it. -/
theorem afterPreposition?_eq_some_iff {s rest : List Char} :
    afterPreposition? s = some rest ↔
      ∃ u more, s = u ++ more ∧ (∃ w ∈ prepositions, u.map foldLetter = w.toList) ∧
        more.head?.any isBlank = true ∧ rest = more.dropWhile isBlank := by
  rw [afterPreposition?_eq, findSome?_eq_some_iff_of_unique]
  · constructor
    · rintro ⟨w, hw, h⟩
      obtain ⟨u, more, hs, hu, hrest⟩ := afterWord?_eq_some_iff.1 h
      exact ⟨u, more, hs, ⟨w, hw, hu⟩, hrest⟩
    · rintro ⟨u, more, hs, ⟨w, hw, hu⟩, hrest⟩
      exact ⟨w, hw, afterWord?_eq_some_iff.2 ⟨u, more, hs, hu, hrest⟩⟩
  · -- the preposition takes up the word characters that the text starts with
    have hstretch : ∀ w ∈ prepositions, ∀ u more, s = u ++ more →
        u.map foldLetter = w.toList → more.head?.any isBlank = true →
        more = s.dropWhile isWordChar := by
      rintro w hw u more rfl hu hblank
      have hletters := isWordChar_of_map (letters_prepositions w hw) hu
      exact (dropWhile_append_stop hletters (stopsBefore_of_blank hblank)).symm
    intro v hv w hw rest rest' h h'
    obtain ⟨u, more, hs, hu, hblank, rfl⟩ := afterWord?_eq_some_iff.1 h
    obtain ⟨u', more', hs', hu', hblank', rfl⟩ := afterWord?_eq_some_iff.1 h'
    rw [hstretch v hv u more hs hu hblank, hstretch w hw u' more' hs' hu' hblank']

/-- The text ` to ` and the space that `strip_destination` leaves for a bracket group. -/
def groupLead : List Char := [' ', 't', 'o', ' ', ' ']

/-- Behind a text, the lead of a bracket group is read as a further word or not at all. -/
theorem wordRun_append_groupLead (count : Nat) (s : List Char) :
    (wordRun count ((s ++ groupLead).dropWhile isBlank)).map Prod.fst =
        (wordRun count (s.dropWhile isBlank)).map Prod.fst ∨
      (wordRun count ((s ++ groupLead).dropWhile isBlank)).map Prod.fst =
        (wordRun count (s.dropWhile isBlank)).map Prod.fst ++ [['t', 'o']] := by
  induction count generalizing s with
  | zero => exact Or.inl rfl
  | succ count ih =>
      by_cases hblank : Blanks s
      · -- the lead alone
        have hnil : s.dropWhile isBlank = [] := List.dropWhile_eq_nil_iff.2 hblank
        rw [List.dropWhile_append_of_pos hblank, hnil]
        cases count with
        | zero => exact Or.inr rfl
        | succ count => exact Or.inr rfl
      · -- the first word is that of the text, and the lead stands behind it
        have hdrop : (s ++ groupLead).dropWhile isBlank = s.dropWhile isBlank ++ groupLead := by
          rw [List.dropWhile_append, if_neg]
          rwa [List.isEmpty_iff, List.dropWhile_eq_nil_iff]
        have hstop : StopsBefore isWordChar groupLead := stopsBefore_cons.2 (by decide)
        rw [hdrop]
        generalize s.dropWhile isBlank = rest
        rw [wordRun, wordRun, hstop.takeWhile_append, hstop.dropWhile_append]
        by_cases hempty : (rest.takeWhile isWordChar).isEmpty = true
        · rw [if_pos hempty, if_pos hempty]
          exact Or.inl rfl
        · rw [if_neg hempty, if_neg hempty]
          rcases ih (rest.dropWhile isWordChar) with hsame | hfurther
          · exact Or.inl (by rw [List.map_cons, List.map_cons, hsame])
          · exact Or.inr (by rw [List.map_cons, List.map_cons, hfurther, List.cons_append])

/-- The reader `folderPhrase` reads nothing exactly inside a word, or where no preposition is
followed by words with `namesAfterArticle`. -/
theorem folderPhrase_eq_none_iff {before : Option Char} {s : List Char} :
    folderPhrase before s = none ↔ before.any isWordChar = true ∨
      ∀ rest, afterPreposition? s = some rest →
        namesAfterArticle ((wordRun 5 rest).map Prod.fst) = false := by
  unfold folderPhrase
  by_cases hbefore : before.any isWordChar = true
  · simp [hbefore]
  · rw [if_neg hbefore]
    cases hrest : afterPreposition? s with
    | none => simp
    | some rest =>
        simp only [Option.bind_eq_bind, Option.bind_some, hbefore, Option.some.injEq,
          forall_eq']
        rw [← isSome_nameAfterArticle?, Option.isSome_eq_false_iff, Option.isNone_iff_eq_none]
        cases nameAfterArticle? (wordRun 5 rest) with
        | none => simp
        | some found => simp

theorem readsWordStarts_folderPhrase : ReadsWordStarts folderPhrase := by
  intro before s
  cases hbefore : before.any isWordChar with
  | true => rw [folderPhrase, if_pos hbefore, if_pos rfl]
  | false => simp [folderPhrase, hbefore]

/-- The text `groupLead` makes no folder phrase at the end of a text. -/
theorem folderPhrase_append_groupLead {before : Option Char} {s : List Char}
    (h : folderPhrase before s = none) : folderPhrase before (s ++ groupLead) = none := by
  rw [folderPhrase_eq_none_iff] at h ⊢
  refine h.imp_right fun hnames rest hrest => ?_
  obtain ⟨u, more, heq, ⟨w, hw, hu⟩, hblank, rfl⟩ := afterPreposition?_eq_some_iff.1 hrest
  -- the preposition stands in the text, since the lead starts with a blank
  obtain ⟨back, rfl, rfl⟩ : ∃ back, s = u ++ back ∧ more = back ++ groupLead := by
    rcases List.append_eq_append_iff.1 heq with ⟨further, rfl, hlead⟩ | ⟨back, hs, hmore⟩
    · cases further with
      | nil => exact ⟨[], by simp, by simp [hlead]⟩
      | cons c further =>
          have hletter := isLetter_of_map (letters_prepositions w hw) hu c (by simp)
          rw [← (List.cons.inj hlead).1] at hletter
          exact absurd hletter (by decide)
    · exact ⟨back, hs, hmore⟩
  have hwords : namesAfterArticle ((wordRun 5 (back.dropWhile isBlank)).map Prod.fst) = false := by
    cases back with
    | nil => rfl
    | cons c back =>
        exact hnames _ (afterPreposition?_eq_some_iff.2
          ⟨u, c :: back, rfl, ⟨w, hw, hu⟩, by simpa using hblank, rfl⟩)
  rcases wordRun_append_groupLead 5 back with hsame | hfurther
  · rw [hsame, hwords]
  · rw [hfurther, namesAfterArticle_append (by decide) (by decide) (by decide), hwords]

/-! ## Texts without their destinations -/

/-- A text without brackets keeps everything but its folder phrases. -/
theorem stripDestination_of_bracketFree {s : List Char} (h : BracketFree s) :
    stripDestination false s = s := by
  rw [stripDestination, if_neg Bool.false_ne_true]
  exact blankOut_eq_self (firstReading?_bracketGroup h none)

/-- The lead of a bracket group has no folder phrase in it. -/
theorem firstReading?_groupLead (before : Option Char) :
    firstReading? folderPhrase before groupLead = none := by
  have hhere : folderPhrase before groupLead = none := by
    rw [folderPhrase_eq_none_iff]
    have hnone : afterPreposition? groupLead = none := by decide
    rw [hnone]
    exact Or.inr fun _ hrest => by cases hrest
  have hrest : firstReading? folderPhrase (some ' ') ['t', 'o', ' ', ' '] = none := by decide
  rw [groupLead] at hhere ⊢
  rw [firstReading?_cons, hhere, Option.none_or]
  exact hrest

/-- The function `stripDestination true` takes `[body]` off a text without a folder phrase and
leaves everything else. -/
theorem stripDestination_append_group {front body : List Char} (hfront : BracketFree front)
    (hbody : BracketFree body) (hphrase : firstReading? folderPhrase none front = none) :
    stripDestination true (front ++ [' ', 't', 'o', ' '] ++ '[' :: (body ++ [']'])) =
      front ++ groupLead := by
  have hlead : BracketFree (front ++ [' ', 't', 'o', ' ']) := hfront.append (by decide)
  rw [stripDestination, if_pos rfl, blankOut_bracketGroup hlead hbody, List.append_assoc]
  exact blankOut_eq_self (firstReading?_append_eq_none
    (fun _ _ => folderPhrase_append_groupLead) hphrase firstReading?_groupLead)

end FileClerk.Command
