import FileClerk.Proofs.Interpreter.BareExtension
import FileClerk.Proofs.Interpreter.NameSearch

/-!
# Searches for a word

A search for a word finds all files whose names contain it, in their order, as long as the word is
read as a name and as nothing else. Keywords are looked for in the whole text of a command, though,
and the word may start with one: with a word for moving, for new or old, for large or small, or with
one of the types of the catalogue. Each of these changes the answer for some collection, so a word
is searched for as it should be exactly if it starts with none of them (`findsWord_iff`).
-/

set_option autoImplicit false

namespace FileClerk

open FileClerk.Text FileClerk.Command FileClerk.Collection

/-! ## Words and keywords -/

/-- The text of the command `nameSearch w`. -/
def wordText (w : List Char) : List Char := [' '].intercalate (searchWords ++ [w])

/-- The text of a search for `w` has no keyword besides those that make it a search. A type word
does no harm if it covers no extension. -/
structure Interpreter.PassesOver (i : Interpreter) (w : List Char) : Prop where
  move : ∀ v ∈ Intent.move.triggers, ¬ v.toList <+: w
  age : ∀ v ∈ recentWords ++ oldWords, ¬ v.toList <+: w
  size : ∀ v ∈ largeWords ++ smallWords, ¬ v.toList <+: w
  types : ∀ v ∈ i.catalogue.vocabulary, StartsWord (lower v.toList) (wordText w) →
    i.catalogue.covered v = []

theorem passesOver_iff_and (i : Interpreter) (w : List Char) : i.PassesOver w ↔
    (∀ v ∈ Intent.move.triggers, ¬ v.toList <+: w) ∧
    (∀ v ∈ recentWords ++ oldWords, ¬ v.toList <+: w) ∧
    (∀ v ∈ largeWords ++ smallWords, ¬ v.toList <+: w) ∧
    ∀ v ∈ i.catalogue.vocabulary, StartsWord (lower v.toList) (wordText w) →
      i.catalogue.covered v = [] :=
  ⟨fun h => ⟨h.move, h.age, h.size, h.types⟩, fun h => ⟨h.1, h.2.1, h.2.2.1, h.2.2.2⟩⟩

instance (i : Interpreter) (w : List Char) : Decidable (i.PassesOver w) :=
  decidable_of_iff _ (passesOver_iff_and i w).symm

section Texts

variable {i : Interpreter} {w : String}

theorem commandText_word (hword : PlainWord w.toList) :
    commandText (some (nameSearch w)) = wordText w.toList := by
  rw [commandText_nameSearch hword.ne_nil hword.stopsBefore_reverse, hword.lower_eq]
  rfl

/-- A keyword occurs in the search if the word starts with it. -/
theorem occursAny_wordText {words : List String} (h : ApartFromSearch words) {w : List Char}
    (hword : PlainWord w) :
    OccursAny words (wordText w) ↔ ∃ v ∈ words, v.toList <+: w := by
  rw [wordText, occursAny_search h]
  refine exists_congr fun v => and_congr_right fun _ => ?_
  exact startsWord_iff_prefix hword.wordLike.classes

theorem not_occursAny_wordText {words : List String} (h : ApartFromSearch words) {w : List Char}
    (hword : PlainWord w) :
    ¬ OccursAny words (wordText w) ↔ ∀ v ∈ words, ¬ v.toList <+: w := by
  rw [occursAny_wordText h hword]
  simp only [not_exists, not_and]

/-- With the standard catalogue, `PassesOver` says that `w` starts with none of a list of words. -/
theorem passesOver_standard_iff {w : List Char} (hword : PlainWord w)
    (h : i.catalogue = Catalogue.standard) : i.PassesOver w ↔
      ∀ v ∈ Intent.move.triggers ++ (recentWords ++ oldWords) ++ (largeWords ++ smallWords) ++
        Catalogue.standard.vocabulary, ¬ v.toList <+: w := by
  have hvocabulary : ∀ v ∈ Catalogue.standard.vocabulary, lower v.toList = v.toList ∧
      Catalogue.standard.covered v ≠ [] := by
    decide +kernel
  have hapart : ApartFromSearch Catalogue.standard.vocabulary := by decide +kernel
  have hstarts : ∀ v ∈ Catalogue.standard.vocabulary,
      (StartsWord (lower v.toList) (wordText w) → Catalogue.standard.covered v = []) ↔
        ¬ v.toList <+: w := by
    intro v hv
    obtain ⟨hlower, hcovers⟩ := hvocabulary v hv
    have hsingle : ApartFromSearch [v] := fun u hu => hapart u (List.mem_singleton.1 hu ▸ hv)
    have hoccurs := occursAny_wordText hsingle hword
    simp only [OccursAny, List.mem_singleton, exists_eq_left] at hoccurs
    rw [hlower, hoccurs]
    exact ⟨fun hcovered hprefix => hcovers (hcovered hprefix),
      fun hnot hprefix => absurd hprefix hnot⟩
  rw [passesOver_iff_and, h, forall₂_congr hstarts]
  simp only [List.forall_mem_append, and_assoc]

/-- The word is the name term. -/
theorem nameTerm?_wordText {w : List Char} (hword : PlainWord w) :
    nameTerm? (wordText w) = some w := by
  have hterm := nameTerm?_search hword.stopsBefore hword.quotedTerm?_eq
    (hword.trim_eq.symm ▸ hword.ne_nil)
  rwa [hword.trim_eq] at hterm

/-- The word is in no size phrase. -/
theorem sizePhrase?_wordText {w : List Char} (hword : PlainWord w) :
    firstReading? sizePhrase? none (wordText w) = none := by
  rw [wordText, opensWith_sizePhrase?.firstReading?_intercalate (by decide) (by simp),
    List.intercalate_singleton]
  exact opensWith_sizePhrase?.firstReading?_of_wordLike hword.wordLike

theorem bracketFree_wordText {w : List Char} (hword : PlainWord w) : BracketFree (wordText w) := by
  refine bracketFree_intercalate fun part hpart => ?_
  have hwords : ∀ part ∈ searchWords, BracketFree part := by decide
  rcases List.mem_append.1 hpart with hfront | hlast
  · exact hwords part hfront
  · rw [List.mem_singleton.1 hlast]
    exact fun c hc => (classes_of_isPlainChar (hword.plain c hc)).2.2.1

/-- The search is read without a size, and unless it is a move, its types are those of the whole
text. -/
theorem exists_read_word (i : Interpreter) (hword : PlainWord w.toList) :
    ∃ r, i.read (nameSearch w) (wordText w.toList) = .ok r ∧ r.threshold = none ∧
      (¬ CallsFor .move (wordText w.toList) →
        r.typeWords = typeWords (wordText w.toList) i.catalogue.vocabulary) := by
  have hphrase := sizePhrase?_wordText hword
  have hsize : ¬ SizeTooLarge (wordText w.toList) := by
    simp [SizeTooLarge, hphrase]
  obtain ⟨r, hread⟩ := exists_read (i := i) (nameSearch w) hsize
  refine ⟨r, hread, ?_, fun hmove => ?_⟩
  · have hthreshold := threshold_of_read hread
    rw [sizeThreshold, hphrase] at hthreshold
    exact (Except.ok.inj hthreshold).symm
  · rw [typeWords_of_read hread, not_contains_move hmove,
      stripDestination_of_bracketFree (bracketFree_wordText hword)]

end Texts

/-! ## What the search finds -/

/-- The answer of a search that finds the files. -/
def foundAnswer (files : List Record) : Answer :=
  ⟨files, .filter, some s!"Found {files.length} file(s) matching your criteria", none⟩

/-- Whatever the collection, the search finds the files whose names contain `w`, in their order. -/
def Interpreter.FindsWord (i : Interpreter) (w : String) : Prop :=
  ∀ files, MutuallyComparable files → i.process (some (nameSearch w)) files =
    .ok (foundAnswer (files.filter (nameContains w.toList)))

/-- A file that is called by the word. -/
def fileCalled (w extension : String) (size wall : Nat) : Record :=
  ⟨"1", w, extension, size, ⟨wall, none⟩, w⟩

theorem nameContains_fileCalled (w extension : String) (size wall : Nat) :
    nameContains w.toList (fileCalled w extension size wall) = true := by
  rw [nameContains, occursIn_iff_infix]
  exact List.infix_rfl

section Answers

variable {i : Interpreter} {w : String}

/-- Unless the word makes a move of it, the search is answered by the criteria of its text. -/
theorem process_word (hword : PlainWord w.toList) (hmove : ¬ CallsFor .move (wordText w.toList)) :
    ∃ r, r.threshold = none ∧
      r.typeWords = typeWords (wordText w.toList) i.catalogue.vocabulary ∧
      ∀ files, MutuallyComparable files → i.process (some (nameSearch w)) files =
        .ok (foundAnswer ((i.criteria (wordText w.toList) r).chosen files)) := by
  have htext := commandText_word hword
  obtain ⟨r, hread, hnone, htypes⟩ := exists_read_word i hword
  have hbranch : i.branch? (wordText w.toList) = some .filter :=
    branch?_search i hmove (nameTerm?_wordText hword)
  refine ⟨r, hnone, htypes hmove, fun files hfiles => ?_⟩
  rw [← htext] at hread hbranch
  have hanswer : i.process (some (nameSearch w)) files = _ :=
    process_eq_response hread hbranch fun part hpart =>
      hfiles.mono (timeOrdered?_sublist hpart).subset
  rw [htext] at hanswer
  exact hanswer

/-- Without a size phrase, a search goes by the words for large and small. -/
theorem threshold_criteria {text : List Char} {r : Reading} (hnone : r.threshold = none) :
    (i.criteria text r).threshold = i.vagueThreshold text := by
  rw [Interpreter.criteria, hnone, Option.none_or]

/-- The criteria are the word, the size that words for large and small stand for, and the types. -/
theorem meets_word (hword : PlainWord w.toList) {r : Reading} (hnone : r.threshold = none)
    (record : Record) : (i.criteria (wordText w.toList) r).meets record =
      (nameContains w.toList record && hasSize (i.vagueThreshold (wordText w.toList)) record &&
        hasType (i.catalogue.expand r.typeWords) record) := by
  have hempty : w.toList.isEmpty = false := List.isEmpty_eq_false_iff.2 hword.ne_nil
  have hterm : (i.criteria (wordText w.toList) r).term = some w.toList := nameTerm?_wordText hword
  rw [Criteria.meets, hterm, threshold_criteria hnone, getD_extensions, hasName, Option.all_some,
    hempty, Bool.false_or]

/-- A search that `PassesOver` the word has `FindsWord`. -/
theorem findsWord_of_passesOver (hword : PlainWord w.toList) (h : i.PassesOver w.toList) :
    i.FindsWord w := by
  obtain ⟨r, hnone, htypes, hanswer⟩ :=
    process_word (i := i) hword ((not_occursAny_wordText (by decide) hword).2 h.move)
  have hrecency : (i.criteria (wordText w.toList) r).recency = none :=
    recency?_eq_none ((not_occursAny_wordText (by decide) hword).2 h.age)
  have hvague : i.vagueThreshold (wordText w.toList) = none := by
    rw [← Option.not_isSome_iff_eq_none, vagueThreshold_isSome_iff]
    exact (not_occursAny_wordText (by decide) hword).2 h.size
  have hexpand : i.catalogue.expand r.typeWords = [] := by
    rw [Catalogue.expand, List.flatMap_eq_nil_iff, htypes]
    intro v hv
    obtain ⟨hvocabulary, hstarts⟩ := mem_typeWords.1 hv
    exact h.types v hvocabulary hstarts
  intro files hfiles
  rw [hanswer files hfiles, Criteria.chosen_eq_filter hrecency]
  congr 2
  refine List.filter_congr fun record _ => ?_
  rw [meets_word hword hnone, hvague, hexpand]
  simp [hasSize, hasType]

end Answers

/-! ## What a keyword changes -/

section Keywords

variable {i : Interpreter} {w : String}

/-- A word for moving makes a move of the search, and a move of no files says so. -/
theorem not_callsFor_move_of_findsWord (hword : PlainWord w.toList) (h : i.FindsWord w) :
    ¬ CallsFor .move (wordText w.toList) := by
  intro hmove
  obtain ⟨r, hread, -, -⟩ := exists_read_word i hword
  have hbranch : i.branch? (wordText w.toList) = some .move := if_pos hmove
  rw [← commandText_word hword] at hread hbranch
  have hanswer : i.process (some (nameSearch w)) [] = _ :=
    process_eq_response hread hbranch fun part hpart => by cases hpart
  have hnil : i.moved r [] = [] := List.sublist_nil.1 (moved_sublist i r [])
  rw [h [] (by simp [MutuallyComparable]), Interpreter.response, move_eq_of_nil hnil] at hanswer
  cases congrArg Answer.action (Except.ok.inj hanswer)

/-- The search, read as `r`, chooses the files whose names contain `w`. -/
def Interpreter.ChoosesNamed (i : Interpreter) (w : String) (r : Reading) : Prop :=
  ∀ files, MutuallyComparable files →
    (i.criteria (wordText w.toList) r).chosen files = files.filter (nameContains w.toList)

/-- A file that is called by the word has the types and sizes of the search. -/
theorem mem_matching_of_choosesNamed {r : Reading} (h : i.ChoosesNamed w r)
    {files : List Record} (hfiles : MutuallyComparable files) {record : Record}
    (hrecord : record ∈ files) (hname : nameContains w.toList record = true) :
    record ∈ (i.criteria (wordText w.toList) r).matching files := by
  refine Criteria.mem_matching_of_mem_chosen ?_
  rw [h files hfiles]
  exact List.mem_filter.2 ⟨hrecord, hname⟩

/-- A file of any type and size is called by the word. -/
theorem hasType_hasSize_of_choosesNamed {r : Reading} (h : i.ChoosesNamed w r)
    (hnone : r.threshold = none) (extension : String) (size : Nat) :
    hasType (i.catalogue.expand r.typeWords) (fileCalled w extension size 0) = true ∧
      hasSize (i.vagueThreshold (wordText w.toList)) (fileCalled w extension size 0) = true := by
  have hmem := mem_matching_of_choosesNamed h (by simp [MutuallyComparable])
    (List.mem_singleton_self (fileCalled w extension size 0))
    (nameContains_fileCalled w extension size 0)
  obtain ⟨htype, hsize⟩ := mem_withSize.1 hmem
  rw [threshold_criteria hnone] at hsize
  rw [getD_extensions] at htype
  exact ⟨(mem_withTypes.1 htype).2, hsize⟩

/-- No type word of the search covers an extension, since files of others would be left out. -/
theorem expand_eq_nil_of_choosesNamed {r : Reading} (h : i.ChoosesNamed w r)
    (hnone : r.threshold = none) : i.catalogue.expand r.typeWords = [] := by
  obtain ⟨extension, hnormal, hnotMem⟩ :=
    exists_extension_notMem ((i.catalogue.expand r.typeWords).map lowered)
  have htype := (hasType_hasSize_of_choosesNamed h hnone extension 0).1
  refine (hasType_eq_true_iff.1 htype).resolve_right ?_
  rintro ⟨x, hx, hlowered⟩
  have hself : lowered extension = extension := hnormal ▸ lowered_normalExtension extension
  exact hnotMem (List.mem_map.2 ⟨x, hx, hlowered.trans hself⟩)

/-- The words for large and small leave out some size each. -/
theorem exists_not_admits_vague (i : Interpreter) (text : List Char) :
    ∃ size, ∀ t ∈ i.vagueThreshold text, t.admits size = false := by
  unfold Interpreter.vagueThreshold
  split
  · exact ⟨0, by simp [Threshold.admits]⟩
  · split
    · exact ⟨i.settings.smallBytes, by simp [Threshold.admits]⟩
    · exact ⟨0, by simp⟩

/-- No word for large or small is in the search. -/
theorem not_occursAny_size_of_choosesNamed {r : Reading} (h : i.ChoosesNamed w r)
    (hnone : r.threshold = none) :
    ¬ OccursAny (largeWords ++ smallWords) (wordText w.toList) := by
  rw [← vagueThreshold_isSome_iff i, Option.isSome_iff_exists]
  rintro ⟨t, ht⟩
  obtain ⟨size, hsize⟩ := exists_not_admits_vague i (wordText w.toList)
  have hadmits := (hasType_hasSize_of_choosesNamed h hnone "" size).2
  rw [ht, hasSize, Option.all_some] at hadmits
  exact absurd hadmits (by simp [fileCalled, hsize t ht])

/-- What a search for new or old files chooses stands in order by time. -/
theorem chosen_sublist_arranged {c : Criteria} {newestFirst : Bool}
    (h : c.recency = some newestFirst) (files : List Record) :
    (c.chosen files).Sublist (arranged (some .date) newestFirst (c.matching files)) := by
  rw [Criteria.chosen, Criteria.latest, h]
  exact (withName_sublist _ _).trans (upTo_sublist _ _)

/-- If the search looks for new or old files, any two of its files are in order by time. -/
theorem inOrder_of_choosesNamed {r : Reading} (h : i.ChoosesNamed w r) {newestFirst : Bool}
    (hrecency : recency? (wordText w.toList) = some newestFirst) (wall wall' : Nat) :
    inOrder .date newestFirst (fileCalled w "" 0 wall) (fileCalled w "" 0 wall') = true := by
  have hfiles : MutuallyComparable [fileCalled w "" 0 wall, fileCalled w "" 0 wall'] := by
    simp [MutuallyComparable, fileCalled]
  have hchosen := h _ hfiles
  have hsublist := chosen_sublist_arranged (c := i.criteria (wordText w.toList) r) hrecency
    [fileCalled w "" 0 wall, fileCalled w "" 0 wall']
  rw [hchosen, List.filter_eq_self.2 (by simp [nameContains_fileCalled])] at hsublist
  have hpairwise := (arranged_pairwise .date newestFirst _).sublist hsublist
  exact List.rel_of_pairwise_cons hpairwise List.mem_cons_self

/-- No word for new or old is in the search, since it would put files in order by time. -/
theorem not_occursAny_age_of_choosesNamed {r : Reading} (h : i.ChoosesNamed w r) :
    ¬ OccursAny (recentWords ++ oldWords) (wordText w.toList) := by
  rw [← recency?_isSome_iff, Option.isSome_iff_exists]
  rintro ⟨newestFirst, hrecency⟩
  have hlater := inOrder_of_choosesNamed h hrecency 0 1
  have hearlier := inOrder_of_choosesNamed h hrecency 1 0
  cases newestFirst with
  | false => simp [inOrder, precedes, fileCalled, Moment.place] at hearlier
  | true => simp [inOrder, precedes, fileCalled, Moment.place] at hlater

end Keywords

/-- A search has `FindsWord` exactly if it `PassesOver` the word: the word starts with no keyword
for a move, for an age or for a size, and no type word that covers an extension is in the search. -/
theorem findsWord_iff (i : Interpreter) {w : String} (hword : PlainWord w.toList) :
    i.FindsWord w ↔ i.PassesOver w.toList := by
  refine ⟨fun h => ?_, findsWord_of_passesOver hword⟩
  have hmove := not_callsFor_move_of_findsWord hword h
  obtain ⟨r, hnone, htypes, hanswer⟩ := process_word (i := i) hword hmove
  have hchooses : i.ChoosesNamed w r := fun files hfiles =>
    congrArg Answer.files (Except.ok.inj ((hanswer files hfiles).symm.trans (h files hfiles)))
  have hage := not_occursAny_age_of_choosesNamed hchooses
  have hsize := not_occursAny_size_of_choosesNamed hchooses hnone
  refine ⟨(not_occursAny_wordText (by decide) hword).1 hmove,
    (not_occursAny_wordText (by decide) hword).1 hage,
    (not_occursAny_wordText (by decide) hword).1 hsize, fun v hv hstarts => ?_⟩
  have hexpand := expand_eq_nil_of_choosesNamed hchooses hnone
  rw [Catalogue.expand, List.flatMap_eq_nil_iff, htypes] at hexpand
  exact hexpand v (mem_typeWords.2 ⟨hv, hstarts⟩)

/-- No keyword is in the way of a report. -/
theorem findsWord_report : PlainWord "report".toList ∧
    (Interpreter.ofSettings {} ⟨0, none⟩ none).FindsWord "report" :=
  ⟨by decide, (findsWord_iff (Interpreter.ofSettings {} ⟨0, none⟩ none) (by decide)).2
    (by decide +kernel)⟩

/-- The word `pdf` is a type word as well, and it is looked for in the names of `pdf` files only. -/
theorem type_word_hides_names :
    ¬ ∀ (i : Interpreter) (w : String) (files : List Record), PlainWord w.toList →
      MutuallyComparable files → ∃ a, i.process (some (nameSearch w)) files = .ok a ∧
        (files.filter (nameContains w.toList)).Sublist a.files := by
  intro hall
  obtain ⟨a, ha, hsublist⟩ := hall (Interpreter.ofSettings {} ⟨0, none⟩ none) "pdf"
    [fileCalled "pdf" "txt" 2048 0] (by decide) (by decide)
  have hanswer : (Interpreter.ofSettings {} ⟨0, none⟩ none).process (some (nameSearch "pdf"))
      [fileCalled "pdf" "txt" 2048 0] = .ok (foundAnswer []) := by
    decide +kernel
  obtain rfl := Except.ok.inj (hanswer.symm.trans ha)
  exact absurd (List.sublist_nil.1 hsublist) (by decide +kernel)

end FileClerk
