import FileClerk.Proofs.Command.Opener

/-!
# The grammar of folder phrases

A folder phrase is a preposition, one or more words and a noun, with blanks between them and in any
letter case. `FolderPhrase` holds the parts of a phrase as it is written. What the reader finds is a
phrase of this form, and the name that it gives is made up of the last words before the noun, one or
two of them; the words in front of the name are fillers (`exists_of_folderPhrase`).

A phrase may be read in several ways, since a filler can also be part of the name and a noun can be
the second word of it. `FolderPhrase.read` says which name is read where the name itself starts with
no filler: an article and "new" in front of it are left out.
-/

set_option autoImplicit false

namespace FileClerk.Command

open FileClerk.Text

/-! ## Words of a list -/

/-- The words that may stand in front of a name without being part of it: an article and `new`. -/
def fillers : List String := articles ++ ["new"]

section Lists

variable {words : List String} {word : List Char}

theorem isOneOf_iff :
    isOneOf words word = true ↔ ∃ w ∈ words, word.map foldLetter = w.toList := by
  simp only [isOneOf, spells, List.any_eq_true, beq_iff_eq]

/-- The word `new` is no article. -/
theorem isOneOf_articles_of_placeholder (h : spells placeholder word = true) :
    isOneOf articles word = false := by
  rw [← Bool.not_eq_true, isOneOf_iff, beq_iff_eq.1 h]
  decide

theorem isOneOf_fillers_iff :
    isOneOf fillers word = true ↔
      isOneOf articles word = true ∨ spells placeholder word = true := by
  have hnew : spells placeholder word = isOneOf ["new"] word := by
    rw [isOneOf, List.any_cons, List.any_nil, Bool.or_false]
    rfl
  rw [hnew, ← Bool.or_eq_true, isOneOf, fillers, List.any_append]
  rfl

/-- A word of a list of plain words has characters in it, and all of them are letters. -/
theorem wordLike_of_isOneOf (hplain : ∀ w ∈ words, w.toList ≠ [] ∧ PlainLetters w.toList)
    (h : isOneOf words word = true) : WordLike word := by
  obtain ⟨w, hw, hfold⟩ := isOneOf_iff.1 h
  exact wordLike_of_map (hplain w hw).2 (hplain w hw).1 hfold

end Lists

theorem plain_prepositions : ∀ w ∈ prepositions, w.toList ≠ [] ∧ PlainLetters w.toList := by
  decide

theorem plain_folderNouns : ∀ w ∈ folderNouns, w.toList ≠ [] ∧ PlainLetters w.toList := by
  decide

/-! ## Words and the blanks behind them -/

/-- The text of words, each with the blanks behind it. -/
def spaced (words : List (List Char × List Char)) : List Char :=
  words.flatMap fun (word, gap) => word ++ gap

/-- Each of the words is one, and at least one blank stands behind it. -/
def IsSpaced (words : List (List Char × List Char)) : Prop :=
  ∀ w ∈ words, WordLike w.1 ∧ w.2 ≠ [] ∧ Blanks w.2

instance (words : List (List Char × List Char)) : Decidable (IsSpaced words) :=
  List.decidableBAll _ words

/-- The first word is read up to its end, and the other ones behind the blanks that follow. -/
theorem wordRun_append {word rest : List Char} (hword : WordLike word)
    (hrest : StopsBefore isWordChar rest) (count : Nat) :
    wordRun (count + 1) (word ++ rest) =
      (word, rest) :: wordRun count (rest.dropWhile isBlank) := by
  rw [wordRun, takeWhile_append_stop hword.classes hrest, dropWhile_append_stop hword.classes hrest,
    if_neg (by simpa using hword.ne_nil)]

/-- A word that is read starts the text. -/
theorem wordRun_eq_cons {count : Nat} {s word rest : List Char}
    {more : List (List Char × List Char)} (h : wordRun count s = (word, rest) :: more) :
    ∃ n, s = word ++ rest ∧ WordLike word ∧ StopsBefore isWordChar rest ∧
      more = wordRun n (rest.dropWhile isBlank) := by
  cases count with
  | zero => cases h
  | succ n =>
      rw [wordRun] at h
      split at h
      · cases h
      · rename_i hne
        cases h
        exact ⟨n, List.takeWhile_append_dropWhile.symm,
          ⟨by simpa using hne, fun c hc => List.mem_takeWhile_imp hc⟩,
          stopsBefore_dropWhile isWordChar s, rfl⟩

/-- Words with blanks behind them start with a word, and so the text behind a gap does. -/
theorem stopsBefore_spaced {words : List (List Char × List Char)} (hwords : IsSpaced words)
    {s : List Char} (hs : StopsBefore isBlank s) : StopsBefore isBlank (spaced words ++ s) := by
  cases words with
  | nil => exact hs
  | cons first words =>
      rw [spaced, List.flatMap_cons, List.append_assoc, List.append_assoc]
      exact stopsBefore_of_wordLike (hwords first List.mem_cons_self).1 _

/-- Words that are spelled out are read one after another, and then what stands behind them. -/
theorem wordRun_spaced {words : List (List Char × List Char)} (hwords : IsSpaced words)
    {s : List Char} (hs : StopsBefore isBlank s) (count : Nat) :
    ∃ front, front.map Prod.fst = words.map Prod.fst ∧
      wordRun (words.length + count) (spaced words ++ s) = front ++ wordRun count s := by
  induction words with
  | nil => exact ⟨[], rfl, by rw [List.length_nil, Nat.zero_add]; rfl⟩
  | cons first words ih =>
      obtain ⟨word, gap⟩ := first
      obtain ⟨⟨hword, hne, hgap⟩, hrest⟩ := List.forall_mem_cons.1 hwords
      obtain ⟨front, hfront, hrun⟩ := ih hrest
      -- the next word or the text behind the words starts where the gap ends
      have hstop := stopsBefore_spaced hrest hs
      refine ⟨(word, gap ++ (spaced words ++ s)) :: front, ?_, ?_⟩
      · rw [List.map_cons, List.map_cons, hfront]
      · rw [spaced, List.flatMap_cons, List.length_cons, Nat.add_right_comm, List.append_assoc,
          List.append_assoc, ← spaced,
          wordRun_append hword (stopsBefore_of_blanks hne hgap _), dropWhile_append_stop hgap hstop,
          hrun, List.cons_append]

/-- Words that are read stand in the text with blanks between them. -/
theorem exists_spaced_of_wordRun {front more : List (List Char × List Char)} {count : Nat}
    {s word rest : List Char} (h : wordRun count s = front ++ (word, rest) :: more) :
    ∃ words, IsSpaced words ∧ words.map Prod.fst = front.map Prod.fst ∧
      s = spaced words ++ (word ++ rest) ∧ WordLike word ∧ StopsBefore isWordChar rest := by
  induction front generalizing count s with
  | nil =>
      obtain ⟨-, hs, hword, hrest, -⟩ := wordRun_eq_cons h
      exact ⟨[], fun w hw => (List.not_mem_nil hw).elim, rfl, hs, hword, hrest⟩
  | cons first front ih =>
      obtain ⟨firstWord, behind⟩ := first
      obtain ⟨n, rfl, hfirst, hbehind, hmore⟩ := wordRun_eq_cons h
      obtain ⟨words, hwords, hmap, hdrop, hword, hrest⟩ := ih hmore.symm
      -- a word follows, so the first word ends at a blank
      have hgap : behind.takeWhile isBlank ≠ [] := by
        intro hnil
        rw [← List.takeWhile_append_dropWhile (p := isBlank) (l := behind), hnil, List.nil_append,
          hdrop] at hbehind
        have hstart : ∀ {v : List Char} (rest : List Char), WordLike v →
            ¬ StopsBefore isWordChar (v ++ rest) := by
          intro v rest hv hstops
          obtain ⟨c, v, rfl⟩ := List.exists_cons_of_ne_nil hv.ne_nil
          rw [List.cons_append, stopsBefore_cons, hv.classes c List.mem_cons_self] at hstops
          cases hstops
        cases words with
        | nil => exact hstart rest hword hbehind
        | cons second words =>
            rw [spaced, List.flatMap_cons, List.append_assoc, List.append_assoc] at hbehind
            exact hstart _ (hwords second List.mem_cons_self).1 hbehind
      refine ⟨(firstWord, behind.takeWhile isBlank) :: words, ?_, ?_, ?_, hword, hrest⟩
      · exact List.forall_mem_cons.2
          ⟨⟨hfirst, hgap, fun c hc => List.mem_takeWhile_imp hc⟩, hwords⟩
      · rw [List.map_cons, List.map_cons, hmap]
      · rw [spaced, List.flatMap_cons, List.append_assoc, List.append_assoc, ← spaced, ← hdrop,
          List.takeWhile_append_dropWhile]

/-! ## Names in a run of words -/

section Names

variable {run : List (List Char × List Char)} {name : List (List Char)} {rest : List Char}

/-- A name is one word or two. -/
def IsShort (name : List (List Char)) : Prop := name.length = 1 ∨ name.length = 2

/-- The reader `nameBeforeNoun?` reads a name up to a noun behind it. -/
theorem exists_of_nameBeforeNoun? (h : nameBeforeNoun? run = some (name, rest)) :
    IsShort name ∧ ∃ front noun more, run = front ++ (noun, rest) :: more ∧
      front.map Prod.fst = name ∧ isOneOf folderNouns noun = true := by
  unfold nameBeforeNoun? at h
  split at h
  · rename_i first behind second behind' more
    split at h
    · rename_i third behind'' further
      split at h
      · rename_i hthird
        cases h
        exact ⟨Or.inr rfl, [(first, behind), (second, behind')], third, further, rfl, rfl, hthird⟩
      · split at h
        · rename_i hsecond
          cases h
          exact ⟨Or.inl rfl, [(first, behind)], second, _, rfl, rfl, hsecond⟩
        · cases h
    · split at h
      · rename_i hsecond
        cases h
        exact ⟨Or.inl rfl, [(first, behind)], second, [], rfl, rfl, hsecond⟩
      · cases h
  · cases h

/-- The reader `nameAfterNew?` may leave out `new` in front of a name. -/
theorem exists_of_nameAfterNew? (h : nameAfterNew? run = some (name, rest)) :
    ∃ skipped run', run = skipped ++ run' ∧ (∀ w ∈ skipped, isOneOf fillers w.1 = true) ∧
      nameBeforeNoun? run' = some (name, rest) := by
  unfold nameAfterNew? at h
  split at h
  · rename_i first behind more
    rcases Option.or_eq_some_iff.1 h with hskipped | ⟨-, hwhole⟩
    · split at hskipped
      · rename_i hnew
        refine ⟨[(first, behind)], more, rfl, fun w hw => ?_, hskipped⟩
        rw [List.mem_singleton.1 hw]
        exact isOneOf_fillers_iff.2 (Or.inr hnew)
      · cases hskipped
    · exact ⟨[], _, rfl, fun w hw => (List.not_mem_nil hw).elim, hwhole⟩
  · cases h

/-- The reader `nameAfterArticle?` may leave out an article and `new` in front of a name. -/
theorem exists_of_nameAfterArticle? (h : nameAfterArticle? run = some (name, rest)) :
    ∃ skipped run', run = skipped ++ run' ∧ (∀ w ∈ skipped, isOneOf fillers w.1 = true) ∧
      nameBeforeNoun? run' = some (name, rest) := by
  unfold nameAfterArticle? at h
  split at h
  · rename_i first behind more
    rcases Option.or_eq_some_iff.1 h with hskipped | ⟨-, hwhole⟩
    · split at hskipped
      · rename_i harticle
        obtain ⟨skipped, run', rfl, hfillers, hname⟩ := exists_of_nameAfterNew? hskipped
        exact ⟨(first, behind) :: skipped, run', rfl,
          List.forall_mem_cons.2 ⟨isOneOf_fillers_iff.2 (Or.inl harticle), hfillers⟩, hname⟩
      · cases hskipped
    · exact exists_of_nameAfterNew? hwhole
  · cases h

end Names

/-! ## Phrases -/

/-- What `FOLDER_PHRASE_PATTERN` matches, as it is written: the preposition with the blanks behind
it, the words up to the noun, each with the blanks behind it, and the noun. -/
structure FolderPhrase where
  preposition : List Char
  gap : List Char
  between : List (List Char × List Char)
  noun : List Char

namespace FolderPhrase

/-- The text of a phrase. -/
def text (p : FolderPhrase) : List Char :=
  p.preposition ++ (p.gap ++ (spaced p.between ++ p.noun))

/-- The words between the preposition and the noun. -/
def words (p : FolderPhrase) : List (List Char) := p.between.map Prod.fst

/-- The parts are what they should be. -/
structure WellFormed (p : FolderPhrase) : Prop where
  preposition : isOneOf prepositions p.preposition = true
  gap_ne_nil : p.gap ≠ []
  gap : Blanks p.gap
  between : IsSpaced p.between
  noun : isOneOf folderNouns p.noun = true

/-- The phrase gives the name: the words of `name` are the last ones before the noun, and all words
in front of them are `fillers`. -/
structure Gives (p : FolderPhrase) (name : List (List Char)) : Prop where
  isShort : IsShort name
  fillers : ∃ skipped, p.words = skipped ++ name ∧ ∀ w ∈ skipped, isOneOf fillers w = true

end FolderPhrase

/-- What `folderPhrase` reads is a `WellFormed` phrase between word boundaries that `Gives` the
name. -/
theorem exists_of_folderPhrase {before : Option Char} {s : List Char} {name : List (List Char)}
    {n : Nat} (h : folderPhrase before s = some (name, n)) :
    before.any isWordChar = false ∧ ∃ (p : FolderPhrase) (rest : List Char), p.WellFormed ∧
      s = p.text ++ rest ∧ n = p.text.length ∧ p.Gives name ∧ StopsBefore isWordChar rest := by
  unfold folderPhrase at h
  split at h
  · cases h
  · rename_i hbefore
    simp only [Option.bind_eq_bind, Option.bind_eq_some_iff, Prod.exists] at h
    obtain ⟨behind, hpreposition, words, rest, hname, hfound⟩ := h
    cases hfound
    -- preposition, blanks, run of words and noun are read one behind the other
    obtain ⟨u, more, rfl, ⟨w, hw, hu⟩, hblank, rfl⟩ := afterPreposition?_eq_some_iff.1 hpreposition
    obtain ⟨skipped, run', hrun, hfillers, hbeforeNoun⟩ := exists_of_nameAfterArticle? hname
    obtain ⟨hshort, front, noun, further, rfl, hfront, hnoun⟩ :=
      exists_of_nameBeforeNoun? hbeforeNoun
    rw [← List.append_assoc] at hrun
    obtain ⟨between, hbetween, hmap, hdrop, -, hrest⟩ := exists_spaced_of_wordRun hrun
    have hgapNe : more.takeWhile isBlank ≠ [] := by
      cases more with
      | nil => cases hblank
      | cons c more =>
          rw [List.takeWhile_cons_of_pos (by simpa using hblank)]
          exact List.cons_ne_nil _ _
    have htext : u ++ more =
        (FolderPhrase.mk u (more.takeWhile isBlank) between noun).text ++ rest := by
      simp only [FolderPhrase.text, List.append_assoc]
      rw [← hdrop, List.takeWhile_append_dropWhile]
    refine ⟨by simpa using hbefore, ⟨u, more.takeWhile isBlank, between, noun⟩, rest,
      ⟨isOneOf_iff.2 ⟨w, hw, hu⟩, hgapNe, fun c hc => List.mem_takeWhile_imp hc, hbetween, hnoun⟩,
      htext, ?_, ⟨hshort, skipped.map Prod.fst, ?_, ?_⟩, hrest⟩
    · rw [htext, List.length_append, Nat.add_sub_cancel]
    · rw [FolderPhrase.words, hmap, List.map_append, hfront]
    · intro v hv
      obtain ⟨w, hw, rfl⟩ := List.mem_map.1 hv
      exact hfillers w hw

/-! ## Which name is read -/

/-- The first word of a text, or nothing if there is none. -/
def firstWord (s : List Char) : List Char :=
  (s.dropWhile fun c => !isWordChar c).takeWhile isWordChar

/-- The word that is read behind blanks is the first one of the text. -/
theorem firstWord_eq {count : Nat} {s word rest : List Char} {more : List (List Char × List Char)}
    (h : wordRun count (s.dropWhile isBlank) = (word, rest) :: more) : firstWord s = word := by
  obtain ⟨-, hs, hword, hrest, -⟩ := wordRun_eq_cons h
  have hgap : ∀ c ∈ s.takeWhile isBlank, (!isWordChar c) = true := by
    intro c hc
    rw [(classes_of_isBlank (List.mem_takeWhile_imp hc)).1]
    rfl
  have hstop : StopsBefore (fun c => !isWordChar c) (word ++ rest) :=
    stopsBefore_append hword.ne_nil
      (.of_forall fun c hc => by rw [hword.classes c hc]; rfl) rest
  have hsplit : s = s.takeWhile isBlank ++ (word ++ rest) := by
    rw [← hs, List.takeWhile_append_dropWhile]
  rw [firstWord, hsplit, dropWhile_append_stop hgap hstop,
    takeWhile_append_stop hword.classes hrest]

section Readings

variable {front article new run more : List (List Char × List Char)} {noun rest : List Char}
  {found : List (List Char) × List Char}

/-- A name in front of a noun is read if no other noun follows. -/
theorem nameBeforeNoun?_append (hshort : IsShort (front.map Prod.fst))
    (hnoun : isOneOf folderNouns noun = true)
    (hmore : ∀ w ∈ more.head?, isOneOf folderNouns w.1 = false) :
    nameBeforeNoun? (front ++ (noun, rest) :: more) = some (front.map Prod.fst, rest) := by
  match front, hshort with
  | [first], _ =>
      cases more with
      | nil => simp [nameBeforeNoun?, hnoun]
      | cons next more =>
          have hnext := hmore next (by simp)
          simp [nameBeforeNoun?, hnoun, hnext]
  | [first, second], _ => simp [nameBeforeNoun?, hnoun]
  | [], hshort => simp [IsShort] at hshort
  | _ :: _ :: _ :: _, hshort => simp [IsShort] at hshort

/-- The reader `nameAfterNew?` reads a name behind `new`, or without it if the name does not start
with `new` itself. -/
theorem nameAfterNew?_append (h : nameBeforeNoun? run = some found)
    (hrun : ∀ w ∈ run.head?, spells placeholder w.1 = false) (hlength : new.length ≤ 1)
    (hnew : ∀ w ∈ new, spells placeholder w.1 = true) :
    nameAfterNew? (new ++ run) = some found := by
  match new, hlength with
  | [], _ =>
      cases run with
      | nil => cases h
      | cons first run =>
          have hfirst := hrun first (by simp)
          simp [nameAfterNew?, hfirst, h]
  | [w], _ =>
      have hw := hnew w List.mem_cons_self
      simp [nameAfterNew?, hw, h]

/-- A name is read behind an article, or without one if what is there does not start with an article
itself. -/
theorem nameAfterArticle?_append (h : nameAfterNew? run = some found)
    (hrun : ∀ w ∈ run.head?, isOneOf articles w.1 = false) (hlength : article.length ≤ 1)
    (harticle : ∀ w ∈ article, isOneOf articles w.1 = true) :
    nameAfterArticle? (article ++ run) = some found := by
  match article, hlength with
  | [], _ =>
      cases run with
      | nil => cases h
      | cons first run =>
          have hfirst := hrun first (by simp)
          simp [nameAfterArticle?, hfirst, h]
  | [w], _ =>
      have hw := harticle w List.mem_cons_self
      simp [nameAfterArticle?, hw, h]

end Readings

namespace FolderPhrase

/-- The words of the phrase are `name` behind an optional article and an optional `new`. The name is
short, and it does not start with such a word itself. -/
structure Names (p : FolderPhrase) (name : List (List Char)) : Prop where
  isShort : IsShort name
  starts : ∀ w ∈ name.head?, isOneOf fillers w = false
  words : ∃ article new, p.words = article ++ (new ++ name) ∧
    (article.length ≤ 1 ∧ ∀ w ∈ article, isOneOf articles w = true) ∧
    (new.length ≤ 1 ∧ ∀ w ∈ new, spells placeholder w = true)

variable {p : FolderPhrase} {name : List (List Char)} {rest : List Char}

/-- Behind the preposition stand the words and the noun. -/
theorem WellFormed.afterPreposition?_eq (hp : p.WellFormed) (rest : List Char) :
    afterPreposition? (p.text ++ rest) = some (spaced p.between ++ (p.noun ++ rest)) := by
  obtain ⟨w, hw, hfold⟩ := isOneOf_iff.1 hp.preposition
  have hnoun := wordLike_of_isOneOf plain_folderNouns hp.noun
  have hstop := stopsBefore_spaced hp.between (stopsBefore_of_wordLike hnoun rest)
  refine afterPreposition?_eq_some_iff.2
    ⟨p.preposition, p.gap ++ (spaced p.between ++ (p.noun ++ rest)), ?_, ⟨w, hw, hfold⟩, ?_, ?_⟩
  · simp only [text, List.append_assoc]
  · obtain ⟨c, gap, hgap⟩ := List.exists_cons_of_ne_nil hp.gap_ne_nil
    rw [hgap, List.cons_append, List.head?_cons, Option.any_some]
    exact hp.gap c (hgap ▸ List.mem_cons_self)
  · rw [dropWhile_append_stop hp.gap hstop]

/-- At most four words stand in front of the noun: an article, `new` and two of the name. -/
theorem Names.length_le (hname : p.Names name) : p.between.length ≤ 4 := by
  obtain ⟨article, new, hwords, ⟨harticle, -⟩, hnew, -⟩ := hname.words
  have hlength := congrArg List.length hwords
  rw [FolderPhrase.words, List.length_map, List.length_append, List.length_append] at hlength
  have hshort : name.length ≤ 2 := by
    rcases hname.isShort with h | h
    · omega
    · omega
  omega

/-- The words in front of the noun give the name behind its fillers. -/
theorem Names.nameAfterArticle?_eq (hname : p.Names name)
    (hnoun : isOneOf folderNouns p.noun = true) {front more : List (List Char × List Char)}
    (hfront : front.map Prod.fst = p.words)
    (hmore : ∀ w ∈ more.head?, isOneOf folderNouns w.1 = false) :
    nameAfterArticle? (front ++ (p.noun, rest) :: more) = some (name, rest) := by
  obtain ⟨article, new, hwords, ⟨hlength, harticle⟩, hlength', hnew⟩ := hname.words
  -- the run is cut as the words are
  rw [hwords] at hfront
  obtain ⟨article, tail, rfl, rfl, htail⟩ := List.map_eq_append_iff.1 hfront
  obtain ⟨new, name, rfl, rfl, rfl⟩ := List.map_eq_append_iff.1 htail
  rw [List.length_map] at hlength hlength'
  rw [List.forall_mem_map] at harticle hnew
  have hbeforeNoun : nameBeforeNoun? (name ++ (p.noun, rest) :: more) =
      some (name.map Prod.fst, rest) := nameBeforeNoun?_append hname.isShort hnoun hmore
  obtain ⟨first, name, rfl⟩ : ∃ first more, name = first :: more := by
    refine List.exists_cons_of_ne_nil ?_
    rintro rfl
    simpa [IsShort] using hname.isShort
  have hfiller : isOneOf articles first.1 = false ∧ spells placeholder first.1 = false := by
    have hfirst := hname.starts first.1 rfl
    rwa [← Bool.not_eq_true, isOneOf_fillers_iff, not_or, Bool.not_eq_true, Bool.not_eq_true]
      at hfirst
  have hafterNew := nameAfterNew?_append hbeforeNoun (by simpa using hfiller.2) hlength' hnew
  rw [List.append_assoc, List.append_assoc]
  refine nameAfterArticle?_append hafterNew (fun w hw => ?_) hlength harticle
  -- what stands there is "new" or the first word of the name
  cases new with
  | nil =>
      obtain rfl : first = w := by simpa using hw
      exact hfiller.1
  | cons v new =>
      obtain rfl : v = w := by simpa using hw
      exact isOneOf_articles_of_placeholder (hnew v List.mem_cons_self)

/-- The reader `folderPhrase` reads the text of a phrase as the name behind its fillers if the word
that follows the phrase is no noun as well. -/
theorem read (hp : p.WellFormed) (hname : p.Names name) {before : Option Char}
    (hbefore : before.any isWordChar = false) (hrest : StopsBefore isWordChar rest)
    (hnext : isOneOf folderNouns (firstWord rest) = false) :
    folderPhrase before (p.text ++ rest) = some (name, p.text.length) := by
  have hnoun := wordLike_of_isOneOf plain_folderNouns hp.noun
  -- five words are read, the noun and perhaps further ones among them
  obtain ⟨count, hcount⟩ : ∃ count, 5 = p.between.length + (count + 1) := by
    have hlength := hname.length_le
    exact ⟨4 - p.between.length, by omega⟩
  obtain ⟨front, hfront, hrun⟩ :=
    wordRun_spaced hp.between (stopsBefore_of_wordLike hnoun rest) (count + 1)
  rw [← hcount, wordRun_append hnoun hrest] at hrun
  have hmore : ∀ w ∈ (wordRun count (rest.dropWhile isBlank)).head?,
      isOneOf folderNouns w.1 = false := by
    intro w hw
    obtain ⟨more, hmore⟩ := List.head?_eq_some_iff.1 hw
    rw [← firstWord_eq hmore]
    exact hnext
  rw [folderPhrase, if_neg (by simp [hbefore]), hp.afterPreposition?_eq, Option.bind_eq_bind,
    Option.bind_some, hrun, hname.nameAfterArticle?_eq hp.noun hfront hmore, Option.bind_eq_bind,
    Option.bind_some]
  simp only [List.length_append, Nat.add_sub_cancel]

end FolderPhrase

end FileClerk.Command
