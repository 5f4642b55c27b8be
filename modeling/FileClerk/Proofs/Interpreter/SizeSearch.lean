import FileClerk.Proofs.Command.SizeClause
import FileClerk.Proofs.Interpreter.Preview

/-!
# Searches by size

A search for files above a larger size lists fewer files, and one for files below a larger size
lists more. The sizes are compared as the rational numbers that are written, whatever their units
and their numbers of digits: rounding to 28 digits and cutting off at the point keep the order.
-/

set_option autoImplicit false

namespace FileClerk

open FileClerk.Text FileClerk.Command FileClerk.Collection

/-! ## Thresholds -/

/-- A size that `greater` admits is admitted by a lower threshold. -/
theorem admits_of_le {t t' : Threshold} (hle : t.bytes ≤ t'.bytes)
    (hgreater : t.comparator = .greater) (hgreater' : t'.comparator = .greater) {size : Nat}
    (h : t'.admits size = true) : t.admits size = true := by
  simp only [Threshold.admits, hgreater, hgreater', decide_eq_true_eq] at h ⊢
  exact Int.lt_of_le_of_lt hle h

/-- A size that `less` admits is admitted by a higher threshold. -/
theorem admits_of_ge {t t' : Threshold} (hle : t.bytes ≤ t'.bytes)
    (hless : t.comparator = .less) (hless' : t'.comparator = .less) {size : Nat}
    (h : t.admits size = true) : t'.admits size = true := by
  simp only [Threshold.admits, hless, hless', decide_eq_true_eq] at h ⊢
  exact Int.lt_of_lt_of_le h hle

namespace Command.SizeClause

variable {c c' : SizeClause}

theorem sizeThreshold_text (c : SizeClause) :
    sizeThreshold c.text.toList = c.phrase.threshold.map some := by
  rw [sizeThreshold, c.spelled.firstReading?_self]

/-- A number of fewer than 900000 digits stays within range. -/
theorem threshold_eq (h : c.phrase.whole.length + c.phrase.fraction.length < 900000) :
    c.phrase.threshold = .ok ⟨c.phrase.comparator, c.phrase.bytes⟩ := by
  have hrange : c.phrase.inRange = true := by
    apply SizePhrase.inRange_of_length
    rw [SizePhrase.maxExponent]
    omega
  rw [SizePhrase.threshold, if_pos hrange]

end Command.SizeClause

/-! ## Searches for a size clause -/

/-- The command `show files <clause>`. -/
def sizeSearch (c : SizeClause) : String := showCommand ("files " ++ c.text)

section Searches

variable {c : SizeClause}

/-- The criteria in lower case. -/
theorem lower_sizeCriteria (c : SizeClause) :
    lower ("files " ++ c.text).toList = "files".toList ++ ' ' :: lower c.text.toList := by
  have htext : ("files " ++ c.text).toList = "files".toList ++ ' ' :: c.text.toList := by
    simp
  rw [htext, lower_append_space]
  congr 1

/-- The text of the search. -/
theorem commandText_sizeSearch (c : SizeClause) : commandText (some (sizeSearch c)) =
    "show".toList ++ ' ' :: ("files".toList ++ ' ' :: lower c.text.toList) := by
  have htext : (sizeSearch c).toList = "show".toList ++ ' ' :: ("files " ++ c.text).toList := by
    simp [sizeSearch, showCommand]
  have hend : (sizeSearch c).toList = "show files ".toList ++ c.text.toList := by
    simp [sizeSearch, showCommand]
  rw [commandText_eq_lower, htext, lower_append_space, lower_sizeCriteria]
  · congr 1
  · rw [htext]
    exact stopsBefore_cons.2 (by decide)
  · rw [hend, List.reverse_append]
    exact stopsBefore_append (by simpa using c.spelled.ne_nil) c.spelled.stopsBefore_reverse _

/-- A keyword that is apart from clauses and starts neither word of the search is none of its
keywords. -/
theorem not_startsWord_sizeCriteria {v : List Char} (hv : ApartFromClauses v)
    (hfiles : ¬ StartsWord v "files".toList) :
    ¬ StartsWord v (lower ("files " ++ c.text).toList) := by
  rw [lower_sizeCriteria, startsWord_append_cons hv.wordLike (by decide)]
  exact not_or.2 ⟨hfiles, c.not_startsWord hv⟩

/-- Words that call for something, and words for new and old, are apart from size searches. -/
theorem keywords_apart : ∀ v ∈ Intent.all.flatMap Intent.triggers ++ (recentWords ++ oldWords),
    ApartFromClauses v.toList ∧ ¬ StartsWord v.toList "files".toList := by
  decide +kernel

/-- The size phrase of the criteria. -/
theorem firstReading?_sizeCriteria (c : SizeClause) :
    firstReading? sizePhrase? none (lower ("files " ++ c.text).toList) =
      some c.phrase.lowered := by
  rw [lower_sizeCriteria, opensWith_sizePhrase?.firstReading?_append_cons (by decide) (by decide)
    (by decide), c.spelled_lower.firstReading?_self]

/-- A search by size says nothing else. -/
theorem plainCriteria_sizeSearch
    (h : c.phrase.whole.length + c.phrase.fraction.length < 900000) :
    PlainCriteria ("files " ++ c.text) where
  bracketFree := by
    have hfiles : BracketFree ("files ".toList ++ c.text.toList) :=
      .append (by decide) c.spelled.bracketFree
    simpa using hfiles
  numbers := by
    apply ShortNumbers.of_countP_lt
    have hfiles : ("files ".toList ++ c.text.toList).countP isDigit < 900000 := by
      have hletters : "files ".toList.countP isDigit = 0 := by decide
      rw [List.countP_append, c.spelled.countP_isDigit, hletters]
      omega
    simpa using hfiles
  calls := by
    rintro intent ⟨v, hv, hstarts⟩
    have hall : intent ∈ Intent.all := by cases intent <;> decide
    obtain ⟨hapart, hfiles⟩ := keywords_apart v
      (List.mem_append_left _ (List.mem_flatMap.2 ⟨intent, hall, hv⟩))
    exact not_startsWord_sizeCriteria hapart hfiles hstarts
  age := by
    rintro ⟨v, hv, hstarts⟩
    obtain ⟨hapart, hfiles⟩ := keywords_apart v (List.mem_append_right _ hv)
    exact not_startsWord_sizeCriteria hapart hfiles hstarts
  phrase := by
    rw [lower_sizeCriteria, opensWith_folderPhrase.firstReading?_append_cons (by decide)
      (by decide) (by decide)]
    exact c.spelled_lower.firstReading?_eq_none opensWith_folderPhrase (by decide)
  name := by
    have hnone : firstReading? nameTermAt? none (commandText (some (sizeSearch c))) = none := by
      rw [commandText_sizeSearch, opensWith_nameTermAt?.firstReading?_append_cons (by decide)
        (by decide) (by decide), opensWith_nameTermAt?.firstReading?_append_cons (by decide)
        (by decide) (by decide)]
      exact c.spelled_lower.firstReading?_eq_none opensWith_nameTermAt? (by decide)
    rw [nameTerm?, show showCommand ("files " ++ c.text) = sizeSearch c from rfl, hnone]
    exact ite_self none
  vague := fun _ => ⟨_, firstReading?_sizeCriteria c⟩

/-- The search names no type of the standard catalogue. -/
theorem typeWords_sizeSearch (c : SizeClause) :
    typeWords (stripDestination false (commandText (some (sizeSearch c))))
      Catalogue.standard.vocabulary = [] := by
  have hvocabulary : ∀ v ∈ Catalogue.standard.vocabulary, ApartFromClauses (lower v.toList) ∧
      ¬ StartsWord (lower v.toList) "show".toList ∧
      ¬ StartsWord (lower v.toList) "files".toList := by decide +kernel
  have hfree : BracketFree (commandText (some (sizeSearch c))) := by
    rw [commandText_sizeSearch]
    have hfront : BracketFree "show files ".toList := by decide
    exact hfront.append c.spelled_lower.bracketFree
  rw [stripDestination_of_bracketFree hfree, List.eq_nil_iff_forall_not_mem]
  intro w hw
  obtain ⟨hmem, hstarts⟩ := mem_typeWords.1 hw
  obtain ⟨hapart, hshow, hfiles⟩ := hvocabulary w hmem
  rw [commandText_sizeSearch, startsWord_append_cons hapart.wordLike (by decide),
    startsWord_append_cons hapart.wordLike (by decide)] at hstarts
  exact (hstarts.resolve_left hshow).elim hfiles (c.not_startsWord hapart)

/-- The search lists the files that the threshold of the clause admits. -/
theorem process_sizeSearch {i : Interpreter} (hi : i.catalogue = Catalogue.standard)
    (h : c.phrase.whole.length + c.phrase.fraction.length < 900000) (files : List Record) :
    ∃ a, i.process (some (sizeSearch c)) files = .ok a ∧ a.files = files.filter fun record =>
      Threshold.admits ⟨c.phrase.comparator, c.phrase.bytes⟩ record.size := by
  -- the search is read as one that has a size phrase and neither types nor age
  have hplain := plainCriteria_sizeSearch h
  have hsize : sizeThreshold (commandText (some (sizeSearch c))) =
      .ok (some ⟨c.phrase.comparator, c.phrase.bytes⟩) := by
    rw [sizeThreshold, sizeSearch, firstReading?_sizePhrase?_show, firstReading?_sizeCriteria]
    simp only [SizePhrase.threshold_lowered, SizeClause.threshold_eq h, Except.map]
  obtain ⟨r, hread⟩ : ∃ r, i.read (sizeSearch c) (commandText (some (sizeSearch c))) = .ok r :=
    ⟨_, read_eq_ok_iff.2 ⟨_, hsize, rfl⟩⟩
  have hthreshold : r.threshold = some ⟨c.phrase.comparator, c.phrase.bytes⟩ :=
    Except.ok.inj ((threshold_of_read hread).symm.trans hsize)
  have hbranch : i.branch? (commandText (some (sizeSearch c))) = some .filter :=
    branch?_show i hplain
  have htypes : r.typeWords = [] := by
    rw [typeWords_of_read hread, not_contains_move (branch?_eq_filter_iff.1 hbranch).1, hi]
    exact typeWords_sizeSearch c
  have hage : ¬ OccursAny (recentWords ++ oldWords) (commandText (some (sizeSearch c))) := by
    rw [sizeSearch, occursAny_show (by decide)]
    exact not_or.2 ⟨by unfold OccursAny; decide, hplain.age⟩
  obtain ⟨a, ha, hfiles⟩ := process_search hread hbranch hage files
  -- so its filter is the one for sizes alone
  refine ⟨a, ha, hfiles.trans (List.filter_congr fun record _ => ?_)⟩
  have hmeets := meets_show hplain hread record
  rw [hthreshold, htypes] at hmeets
  rw [sizeSearch, hmeets]
  simp [hasSize, hasType, Catalogue.expand]

/-- Of two clauses, the one with the larger `size` has a threshold that is no lower. A search for
files above it lists some of those that a search for files above the smaller size lists, in their
order, and a search for files below it lists all of those below the smaller size. -/
theorem sizeSearch_mono {i : Interpreter} {c c' : SizeClause}
    (hi : i.catalogue = Catalogue.standard)
    (h : c.phrase.whole.length + c.phrase.fraction.length < 900000)
    (h' : c'.phrase.whole.length + c'.phrase.fraction.length < 900000)
    (hle : c.phrase.size ≤ c'.phrase.size) :
    ∃ t t', sizeThreshold c.text.toList = .ok (some t) ∧
      sizeThreshold c'.text.toList = .ok (some t') ∧ t.bytes ≤ t'.bytes ∧
      ∀ files, ∃ a a', i.process (some (sizeSearch c)) files = .ok a ∧
        i.process (some (sizeSearch c')) files = .ok a' ∧
        (c.AsksAbove → c'.AsksAbove → a'.files.Sublist a.files) ∧
        (c.AsksBelow → c'.AsksBelow → a.files.Sublist a'.files) := by
  have hbytes : (c.phrase.bytes : Int) ≤ c'.phrase.bytes := by
    exact_mod_cast SizePhrase.bytes_le_bytes c.spelled.isDigit_fraction
      c'.spelled.isDigit_fraction hle
  refine ⟨⟨c.phrase.comparator, c.phrase.bytes⟩, ⟨c'.phrase.comparator, c'.phrase.bytes⟩, ?_, ?_,
    hbytes, fun files => ?_⟩
  · rw [c.sizeThreshold_text, SizeClause.threshold_eq h]
    rfl
  · rw [c'.sizeThreshold_text, SizeClause.threshold_eq h']
    rfl
  · obtain ⟨a, ha, hfiles⟩ := process_sizeSearch hi h files
    obtain ⟨a', ha', hfiles'⟩ := process_sizeSearch hi h' files
    refine ⟨a, a', ha, ha', ?_⟩
    -- both searches filter the same files, and one threshold admits what the other admits
    rw [hfiles, hfiles']
    refine ⟨fun habove habove' => ?_, fun hbelow hbelow' => ?_⟩
    · exact List.monotone_filter_right files fun record hrecord => admits_of_le hbytes
        (c.comparator_of_asksAbove habove) (c'.comparator_of_asksAbove habove') hrecord
    · exact List.monotone_filter_right files fun record hrecord => admits_of_ge hbytes
        (c.comparator_of_asksBelow hbelow) (c'.comparator_of_asksBelow hbelow') hrecord

end Searches

/-- A clause with a fraction. -/
def halfMegabyte : SizeClause where
  text := "larger than 0.5 mb"
  phrase := ⟨"larger".toList, ['0'], ['5'], .mb⟩
  ascii := by decide
  spelled := .intro [' '] "than".toList [' '] [' '] "mb".toList ⟨"larger", by decide, by decide⟩
    (by decide) (by decide) (by decide) (by decide) (by decide) (by decide) (by decide) (by decide)
    (by decide) (by decide)

/-- A clause in another unit, with no blank in front of it. -/
def thousandKilobytes : SizeClause where
  text := "Bigger than 1000KB"
  phrase := ⟨"Bigger".toList, "1000".toList, [], .kb⟩
  ascii := by decide
  spelled := .intro [' '] "than".toList [' '] [] "KB".toList ⟨"bigger", by decide, by decide⟩
    (by decide) (by decide) (by decide) (by decide) (by decide) (by decide) (by decide) (by decide)
    (by decide) (by decide)

/-- Files above a thousand kilobytes are files above half a megabyte. -/
theorem sizeSearch_mono_thousand :
    ∃ t t', sizeThreshold halfMegabyte.text.toList = .ok (some t) ∧
      sizeThreshold thousandKilobytes.text.toList = .ok (some t') ∧ t.bytes ≤ t'.bytes ∧
      ∀ files, ∃ a a',
        (Interpreter.ofSettings {} ⟨0, none⟩ none).process (some (sizeSearch halfMegabyte)) files =
          .ok a ∧
        (Interpreter.ofSettings {} ⟨0, none⟩ none).process (some (sizeSearch thousandKilobytes))
          files = .ok a' ∧
        (halfMegabyte.AsksAbove → thousandKilobytes.AsksAbove → a'.files.Sublist a.files) ∧
        (halfMegabyte.AsksBelow → thousandKilobytes.AsksBelow → a.files.Sublist a'.files) := by
  have hle : halfMegabyte.phrase.size ≤ thousandKilobytes.phrase.size := by
    rw [SizePhrase.size_eq halfMegabyte.spelled.isDigit_fraction,
      SizePhrase.size_eq thousandKilobytes.spelled.isDigit_fraction]
    have hhalf : halfMegabyte.phrase.digits * halfMegabyte.phrase.unit.bytes = 5242880 := by
      decide +kernel
    have hthousand : thousandKilobytes.phrase.digits * thousandKilobytes.phrase.unit.bytes =
        1024000 := by
      decide +kernel
    rw [hhalf, hthousand]
    norm_num [halfMegabyte, thousandKilobytes]
  exact sizeSearch_mono rfl (by decide) (by decide) hle

end FileClerk
