import FileClerk.Proofs.Command.NameTerm
import FileClerk.Proofs.Command.SizeGrammar
import FileClerk.Proofs.Command.Strip

/-!
# Opening words

What the readers of size phrases, name terms and folder phrases find starts with a whole word from a
short list, in any letter case, and a blank behind it. `OpensWith` says so of a reader. Such a
reader passes over every other word of a text and over what stands between words, so a first reading
is looked for behind them (`OpensWith.firstReading?_append_cons`,
`OpensWith.firstReading?_append_letters`).

A word that opens a phrase elsewhere starts none where the words behind it do not go on with one
(`sizePhrase?_append_cons_eq_none`, `folderPhrase_append_cons_eq_none`).

A size phrase is made up of words that open neither a name term nor a folder phrase, and these
readers pass over it as a whole (`SizePhrase.Spelled.firstReading?_append_cons`). A word in front of
a size phrase starts no phrase together with it (`SizePhrase.Spelled.sizePhrase?_append_cons`,
`SizePhrase.Spelled.folderPhrase_append_cons`).
-/

set_option autoImplicit false

namespace FileClerk.Command

open FileClerk.Text

universe u

variable {α : Type u} {read : Option Char → List Char → Option α} {openers : List String}

/-- The text starts with a whole word, one of `openers` in any letter case, and a blank behind it.
-/
structure Opens (openers : List String) (s : List Char) : Prop where
  word : ∃ w ∈ openers, (s.takeWhile isWordChar).map foldLetter = w.toList
  blank : (s.dropWhile isWordChar).head?.any isBlank = true

/-- The reader `read` succeeds only where the text `Opens` with one of `openers`. -/
structure OpensWith (openers : List String) (read : Option Char → List Char → Option α) :
    Prop where
  starts : ReadsWordStarts read
  plain : ∀ w ∈ openers, w.toList ≠ [] ∧ PlainLetters w.toList
  opens : ∀ s a, read none s = some a → Opens openers s

/-! ## Readers of phrases -/

/-- Letters make a word. -/
theorem wordLike_of_map {u : List Char} {w : String} (hw : PlainLetters w.toList)
    (hne : w.toList ≠ []) (hu : u.map foldLetter = w.toList) : WordLike u where
  ne_nil := by
    rintro rfl
    exact hne hu.symm
  classes := isWordChar_of_map hw hu

/-- Letters in front of a blank make a whole word. -/
theorem opens_append {u rest : List Char} {w : String} (hmem : w ∈ openers)
    (hw : PlainLetters w.toList) (hu : u.map foldLetter = w.toList)
    (hrest : rest.head?.any isBlank = true) : Opens openers (u ++ rest) := by
  have hletters := isWordChar_of_map hw hu
  have hstop := stopsBefore_of_blank hrest
  refine ⟨⟨w, hmem, ?_⟩, ?_⟩
  · rw [takeWhile_append_stop hletters hstop, hu]
  · rw [dropWhile_append_stop hletters hstop]
    exact hrest

theorem opensWith_sizePhrase? : OpensWith (greaterWords ++ lessWords) sizePhrase? where
  starts := readsWordStarts_sizePhrase?
  plain := by decide
  opens := by
    intro s p hp
    obtain ⟨-, u, rest, rfl, hspelled, -⟩ := sizePhrase?_eq_some_iff.1 hp
    obtain ⟨gap, than, gap', space, unit, ⟨w, hw, hword⟩, hne, hblanks, -⟩ := hspelled
    rw [List.append_assoc]
    refine opens_append hw (letters_comparingWords w hw) hword ?_
    obtain ⟨c, gap, rfl⟩ := List.exists_cons_of_ne_nil hne
    simpa using hblanks c List.mem_cons_self

theorem opensWith_nameTermAt? : OpensWith ["name"] nameTermAt? where
  starts := readsWordStarts_nameTermAt?
  plain := by decide
  opens := by
    intro s term hterm
    simp only [nameTermAt?, Option.any_none, Bool.false_eq_true, if_false, Option.bind_eq_bind,
      Option.bind_eq_some_iff] at hterm
    obtain ⟨rest, hrest, hterm⟩ := hterm
    obtain ⟨u, rfl, hu⟩ := afterLetters_eq_some_iff.1 hrest
    have hu' : u.map foldLetter = "name".toList := hu
    refine opens_append (List.mem_singleton_self _) (by decide) hu' ?_
    -- without a blank behind the word nothing is read
    cases rest with
    | nil => simp at hterm
    | cons c rest =>
        by_contra hc
        have hblank : isBlank c = false := by simpa using hc
        simp [hblank] at hterm

theorem opensWith_folderPhrase : OpensWith prepositions folderPhrase where
  starts := readsWordStarts_folderPhrase
  plain := by decide
  opens := by
    intro s phrase hphrase
    simp only [folderPhrase, Option.any_none, Bool.false_eq_true, if_false, Option.bind_eq_bind,
      Option.bind_eq_some_iff] at hphrase
    obtain ⟨rest, hrest, -⟩ := hphrase
    obtain ⟨u, more, rfl, ⟨w, hw, hu⟩, hblank, -⟩ := afterPreposition?_eq_some_iff.1 hrest
    exact opens_append hw (letters_prepositions w hw) hu hblank

/-! ## What is passed over -/

namespace OpensWith

variable {s word : List Char} {c : Char}

/-- The reader `read` gives `none` where the text does not start with one of the openers. -/
theorem eq_none (h : OpensWith openers read) (hs : ¬ Opens openers s) (before : Option Char) :
    read before s = none := by
  rw [h.starts]
  split
  · rfl
  · rw [← Option.not_isSome_iff_eq_none, Option.isSome_iff_exists]
    rintro ⟨a, ha⟩
    exact hs (h.opens s a ha)

theorem not_opens_of_stop (h : OpensWith openers read) (hs : StopsBefore isWordChar s) :
    ¬ Opens openers s := by
  rintro ⟨⟨w, hw, hopens⟩, -⟩
  rw [hs.takeWhile_eq] at hopens
  exact (h.plain w hw).1 hopens.symm

/-- No opener starts with the character. -/
theorem not_opens_of_letter (h : OpensWith openers read)
    (hc : ∀ w ∈ openers, w.toList.head? ≠ some (foldLetter c)) : ¬ Opens openers (c :: s) := by
  by_cases hclass : isWordChar c = true
  · rintro ⟨⟨w, hw, hopens⟩, -⟩
    rw [List.takeWhile_cons_of_pos hclass, List.map_cons] at hopens
    exact hc w hw (hopens ▸ rfl)
  · exact h.not_opens_of_stop (stopsBefore_cons.2 (by simpa using hclass))

theorem firstReading?_nil (h : OpensWith openers read) (before : Option Char) :
    firstReading? read before [] = none :=
  h.eq_none (h.not_opens_of_stop (stopsBefore_nil _)) before

/-- A character that is no word character is passed over, whatever stands before it. -/
theorem firstReading?_cons_stop (h : OpensWith openers read) (hc : isWordChar c = false)
    (before : Option Char) (s : List Char) :
    firstReading? read before (c :: s) = firstReading? read none s := by
  rw [firstReading?_cons, h.eq_none (h.not_opens_of_stop (stopsBefore_cons.2 hc)), Option.none_or]
  -- it counts as no neighbour of what stands behind it
  refine firstReading?_congr (fun s => ?_) s
  rw [h.starts, if_neg (by simp [hc])]

/-- A whole word that is none of `openers` is passed over. -/
theorem firstReading?_append_cons (h : OpensWith openers read) (hword : WordLike word)
    (hne : ∀ w ∈ openers, word.map foldLetter ≠ w.toList) (hc : isWordChar c = false)
    (s : List Char) : firstReading? read none (word ++ c :: s) = firstReading? read none s := by
  refine h.starts.firstReading?_append_cons hc hword (h.eq_none ?_ none)
  rintro ⟨⟨w, hw, hopens⟩, -⟩
  rw [takeWhile_append_stop hword.classes (stopsBefore_cons.2 hc)] at hopens
  exact hne w hw hopens

/-- Any word is passed over if it ends at a character other than a blank. -/
theorem firstReading?_append_cons_stop (h : OpensWith openers read) (hword : WordLike word)
    (hc : isWordChar c = false) (hblank : isBlank c = false) (s : List Char) :
    firstReading? read none (word ++ c :: s) = firstReading? read none s := by
  refine h.starts.firstReading?_append_cons hc hword (h.eq_none ?_ none)
  rintro ⟨-, hopens⟩
  rw [dropWhile_append_stop hword.classes (stopsBefore_cons.2 hc)] at hopens
  simp [hblank] at hopens

/-- There is nothing to read in the last word of a text. -/
theorem firstReading?_of_wordLike (h : OpensWith openers read) (hword : WordLike word) :
    firstReading? read none word = none := by
  rw [← Option.not_isSome_iff_eq_none, Option.isSome_iff_exists]
  rintro ⟨a, ha⟩
  obtain ⟨front, back, rfl, hread⟩ := exists_of_firstReading? ha
  -- no blank follows the rest of the word, wherever in it the reading starts
  have hnot : ¬ Opens openers back := by
    rintro ⟨-, hopens⟩
    have hback : ∀ c ∈ back, isWordChar c = true :=
      fun c hc => hword.classes c (List.mem_append_right front hc)
    rw [List.dropWhile_eq_nil_iff.2 hback] at hopens
    cases hopens
  rw [h.eq_none hnot] at hread
  cases hread

/-- A text whose letters open none of the words is passed over. -/
theorem firstReading?_append_letters (h : OpensWith openers read) {text : List Char}
    (htext : ∀ c ∈ text, ∀ w ∈ openers, w.toList.head? ≠ some (foldLetter c))
    (before : Option Char) (s : List Char) :
    firstReading? read before (text ++ s) = firstReading? read (text.getLast?.or before) s := by
  -- along the text, whose characters become the ones before the rest
  induction text generalizing before with
  | nil => rfl
  | cons c rest ih =>
      obtain ⟨hc, hrest⟩ := List.forall_mem_cons.1 htext
      rw [List.cons_append, firstReading?_cons, h.eq_none (h.not_opens_of_letter hc),
        Option.none_or, ih hrest, getLast?_cons_or]

/-- A whole word and the blanks behind it are passed over. -/
theorem firstReading?_append_gap (h : OpensWith openers read) (hword : WordLike word)
    (hne : ∀ w ∈ openers, word.map foldLetter ≠ w.toList) {gap : List Char} (hgap : Blanks gap)
    (hgapNe : gap ≠ []) (s : List Char) :
    firstReading? read none (word ++ (gap ++ s)) = firstReading? read none s := by
  obtain ⟨c, gap, rfl⟩ := List.exists_cons_of_ne_nil hgapNe
  obtain ⟨hc, hrest⟩ := List.forall_mem_cons.1 hgap
  rw [List.cons_append, h.firstReading?_append_cons hword hne (classes_of_isBlank hc).1]
  refine h.starts.firstReading?_blanks_append (fun d rest hd => ?_) hrest s
  exact h.eq_none (h.not_opens_of_stop (stopsBefore_cons.2 (classes_of_isBlank hd).1)) none

end OpensWith

/-! ## Words in front of a text -/

section Words

variable {word text : List Char}

theorem stopsBefore_of_wordLike (hword : WordLike word) (rest : List Char) :
    StopsBefore isBlank (word ++ rest) :=
  stopsBefore_append hword.ne_nil
    (.of_forall fun c hc => isBlank_of_isWordChar (hword.classes c hc)) rest

theorem stopsBefore_of_blanks {gap : List Char} (hne : gap ≠ []) (hgap : Blanks gap)
    (rest : List Char) : StopsBefore isWordChar (gap ++ rest) :=
  stopsBefore_append hne (.of_forall fun c hc => (classes_of_isBlank (hgap c hc)).1) rest

/-- A word starts no size phrase if `than` does not follow it. -/
theorem sizePhrase?_append_cons_eq_none (hword : WordLike word) (hstart : StopsBefore isBlank text)
    (hthan : (text.takeWhile isWordChar).map foldLetter ≠ "than".toList) :
    sizePhrase? none (word ++ ' ' :: text) = none := by
  rw [← Option.not_isSome_iff_eq_none, Option.isSome_iff_exists]
  rintro ⟨p, hp⟩
  obtain ⟨-, u, rest, heq, hspelled, -⟩ := sizePhrase?_eq_some_iff.1 hp
  obtain ⟨hfirst, -⟩ := hspelled.wordLike_word
  obtain ⟨gap, than, gap', space, unit, -, hne, hblanks, hthan', hne', hblanks', -⟩ := hspelled
  have hspells : than.map foldLetter = "than".toList := hthan'
  have hthanLike : WordLike than := wordLike_of_map (by decide) (by decide) hspells
  -- the words in front are the same, and so are the texts behind the blanks
  simp only [List.append_assoc] at heq
  obtain ⟨-, hbehind⟩ := append_inj_of_stops hword.classes (stopsBefore_cons.2 (by decide))
    hfirst.classes (stopsBefore_of_blanks hne hblanks _) heq
  have hspace : Blanks [' '] := by decide
  obtain ⟨-, rfl⟩ := append_inj_of_stops hspace hstart hblanks
    (stopsBefore_of_wordLike hthanLike _) hbehind
  rw [takeWhile_append_stop hthanLike.classes (stopsBefore_of_blanks hne' hblanks' _)] at hthan
  exact hthan hspells

/-- A word starts no folder phrase if none of `folderNouns` is among the five words that follow it.
-/
theorem folderPhrase_append_cons_eq_none (hword : WordLike word)
    (hstart : StopsBefore isBlank text)
    (hnouns : ∀ name ∈ (wordRun 5 text).map Prod.fst, isOneOf folderNouns name = false) :
    folderPhrase none (word ++ ' ' :: text) = none := by
  refine folderPhrase_eq_none_iff.2 (Or.inr fun rest hrest => ?_)
  obtain ⟨u, more, heq, ⟨w, hw, hu⟩, hblank, rfl⟩ := afterPreposition?_eq_some_iff.1 hrest
  -- the preposition is the word, and the name would have to stand in the text
  have hletters := isWordChar_of_map (letters_prepositions w hw) hu
  obtain ⟨-, rfl⟩ := append_inj_of_stops hword.classes (stopsBefore_cons.2 (by decide)) hletters
    (stopsBefore_of_blank hblank) heq
  have hspace : isBlank ' ' = true := by decide
  rw [List.dropWhile_cons_of_pos hspace, hstart.dropWhile_eq]
  exact namesAfterArticle_eq_false hnouns

end Words

/-! ## Size phrases -/

/-- No word of a size phrase, and not `than` either, is one of `openers`. -/
def ApartFromSizes (openers : List String) : Prop :=
  (∀ w ∈ openers, ∀ v ∈ "than" :: (greaterWords ++ lessWords), v.toList ≠ w.toList) ∧
    ∀ w ∈ openers, ∀ unit ∈ SizeUnit.all, ∀ c ∈ unit.letters, w.toList.head? ≠ some c

instance (openers : List String) : Decidable (ApartFromSizes openers) :=
  inferInstanceAs (Decidable (_ ∧ _))

namespace SizePhrase.Spelled

variable {p : SizePhrase} {text : List Char}

/-- A reader passes over a phrase whose words open nothing for it. -/
theorem exists_firstReading?_append (h : p.Spelled text) (hread : OpensWith openers read)
    (hapart : ApartFromSizes openers) (s : List Char) :
    ∃ before, before.any isWordChar = true ∧
      firstReading? read none (text ++ s) = firstReading? read before s := by
  obtain ⟨gap, than, gap', space, unit, ⟨v, hv, hword⟩, hne, hblanks, hthan, hne', hblanks',
    hwhole, hdigits, hfraction, hspace, hunit⟩ := h
  -- the two words in front of the number are passed over, and so are the blanks behind them
  have hwordNe : v.toList ≠ [] := (opensWith_sizePhrase?.plain v hv).1
  have hfirst := hread.firstReading?_append_gap
    (wordLike_of_map (letters_comparingWords v hv) hwordNe hword)
    (fun w hw => hword ▸ hapart.1 w hw v (List.mem_cons_of_mem _ hv)) hblanks hne
  have hthan' : than.map foldLetter = "than".toList := hthan
  have hsecond := hread.firstReading?_append_gap
    (wordLike_of_map (by decide) (by decide) hthan')
    (fun w hw => hthan' ▸ hapart.1 w hw "than" List.mem_cons_self) hblanks' hne'
  -- nothing that is looked for starts with a character of the number or of the unit
  have hletters : ∀ c ∈ p.whole ++ (pointed p.fraction ++ (space ++ unit)), ∀ w ∈ openers,
      w.toList.head? ≠ some (foldLetter c) := by
    intro c hc w hw hhead
    have hletter : IsLetter c := (hread.plain w hw).2 _ (List.mem_of_head? hhead)
    have hmem : c ∈ unit := mem_unit hdigits hfraction hspace hc hletter
    have hall : p.unit ∈ SizeUnit.all := by cases p.unit <;> decide
    exact hapart.2 w hw p.unit hall (foldLetter c) (hunit ▸ List.mem_map_of_mem hmem) hhead
  have hnumber := hread.firstReading?_append_letters hletters none s
  simp only [List.append_assoc] at hnumber ⊢
  rw [hfirst, hsecond, hnumber]
  refine ⟨_, ?_, rfl⟩
  -- the last character is that of the unit
  have hunitNe : unit ≠ [] := by
    rintro rfl
    cases hname : p.unit <;> rw [hname] at hunit <;> cases hunit
  simp only [List.getLast?_append, List.getLast?_eq_some_getLast hunitNe, Option.some_or,
    Option.any_some]
  exact isWordChar_of_map (letters_units p.unit) hunit _ (List.getLast_mem hunitNe)

theorem firstReading?_append_cons (h : p.Spelled text) (hread : OpensWith openers read)
    (hapart : ApartFromSizes openers) {c : Char} (hc : isWordChar c = false) (s : List Char) :
    firstReading? read none (text ++ c :: s) = firstReading? read none s := by
  obtain ⟨before, -, heq⟩ := h.exists_firstReading?_append hread hapart (c :: s)
  rw [heq, hread.firstReading?_cons_stop hc]

theorem firstReading?_eq_none (h : p.Spelled text) (hread : OpensWith openers read)
    (hapart : ApartFromSizes openers) : firstReading? read none text = none := by
  obtain ⟨before, -, heq⟩ := h.exists_firstReading?_append hread hapart []
  rw [← List.append_nil text, heq, hread.firstReading?_nil]

/-- A word in front of a phrase starts no other phrase, since `than` does not follow it. -/
theorem sizePhrase?_append_cons (h : p.Spelled text) {word : List Char} (hword : WordLike word) :
    sizePhrase? none (word ++ ' ' :: text) = none := by
  obtain ⟨hfirst, -⟩ := h.wordLike_word
  refine sizePhrase?_append_cons_eq_none hword h.stopsBefore ?_
  -- the word that follows is the comparing one
  obtain ⟨gap, than, gap', space, unit, ⟨w, hw, hcomparing⟩, hne, hblanks, -⟩ := h
  rw [takeWhile_append_stop hfirst.classes (stopsBefore_of_blanks hne hblanks _), hcomparing]
  have hapart : ∀ w ∈ greaterWords ++ lessWords, w.toList ≠ "than".toList := by decide
  exact hapart w hw

/-- A word in front of a phrase starts no folder phrase, since no noun follows it. -/
theorem folderPhrase_append_cons (h : p.Spelled text) {word : List Char} (hword : WordLike word) :
    folderPhrase none (word ++ ' ' :: text) = none := by
  refine folderPhrase_append_cons_eq_none hword h.stopsBefore fun name hname => ?_
  have hsubset := subset_of_mem_wordRun hname
  rw [← Bool.not_eq_true, isOneOf, List.any_eq_true]
  rintro ⟨noun, hnoun, hspells⟩
  -- each noun has a letter that no phrase has
  have hnouns : ∀ noun ∈ folderNouns, 'd' ∈ noun.toList := by decide
  have hapart : (∀ w ∈ "than" :: (greaterWords ++ lessWords), 'd' ∉ w.toList) ∧
      ∀ unit ∈ SizeUnit.all, 'd' ∉ unit.letters := by decide
  rw [spells, beq_iff_eq] at hspells
  obtain ⟨c, hc, hfold⟩ := List.mem_map.1 (hspells ▸ hnouns noun hnoun)
  have hletter : IsLetter c := by
    rw [IsLetter, hfold]
    decide
  rcases h.exists_mem_of_isLetter (hsubset hc) hletter with ⟨w, hw, hmem⟩ | ⟨unit, hunit, hmem⟩
  · exact hapart.1 w hw (hfold ▸ hmem)
  · exact hapart.2 unit hunit (hfold ▸ hmem)

end SizePhrase.Spelled

end FileClerk.Command
