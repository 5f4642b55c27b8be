import FileClerk.Proofs.Interpreter.Commute
import FileClerk.Proofs.Interpreter.CriteriaOrder
import FileClerk.Proofs.Interpreter.Idempotence
import FileClerk.Proofs.Interpreter.Search

/-!
# Searches for a quoted name

A search for a term between quotes finds files whose names contain the term, as long as the term is
read whole. It is if all of its characters may stand in a term, and the search is a search if no
word of the term is one for moving. In every other case the search lists files that do not have the
term in their names, unless it lists nothing at all (`findsNamed_iff`).

That it lists any such file is shown by giving a file that it lists another name: types, sizes and
times are those of the file, so only the name term can keep it out (`exists_listed_called`).
-/

set_option autoImplicit false

namespace FileClerk

open FileClerk.Text FileClerk.Command FileClerk.Collection

/-! ## Files under other names -/

/-- The record under another `name`. -/
def Record.called (record : Record) (name : String) : Record := { record with name := name }

section Called

variable {i : Interpreter} {text : List Char} {r : Reading} {record : Record}

/-- A move of one record answers with it, whether it takes it or not. -/
theorem mem_files_move_singleton (i : Interpreter) (r : Reading) (record : Record) :
    record ∈ (i.move r [record]).files := by
  by_cases hmoved : i.moved r [record] = []
  · rw [move_eq_of_nil hmoved]
    exact List.mem_singleton_self record
  · have hall := (moved_sublist i r [record]).eq_of_length_le (List.length_pos_iff.2 hmoved)
    rw [move_eq_of_ne_nil hmoved]
    show record ∈ i.moved r [record]
    rw [hall]
    exact List.mem_singleton_self record

/-- The newest or oldest of one record is the record. -/
theorem latest_singleton (i : Interpreter) (text : List Char) (r : Reading) (record : Record) :
    (i.criteria text r).latest [record] = [record] := by
  unfold Criteria.latest
  split
  · rfl
  · rename_i newestFirst _
    have harranged : arranged (some .date) newestFirst [record] = [record] :=
      List.perm_singleton.1 (arranged_perm _ _ _)
    have hlimit : (i.criteria text r).limit = i.recencyLimit text := rfl
    rw [harranged, hlimit, Interpreter.recencyLimit]
    split
    · rfl
    · -- the limit of the settings is positive
      have hpos := i.settings.recentLimit_pos
      have hnonneg : ¬ ((i.settings.recentLimit : Int) < 0) := by omega
      simp only [upTo, if_neg hnonneg, Int.toNat_natCast]
      exact List.take_of_length_le hpos

/-- A record that meets the criteria is chosen from itself. -/
theorem mem_chosen_singleton (h : (i.criteria text r).meets record = true) :
    record ∈ (i.criteria text r).chosen [record] := by
  rw [Criteria.meets, Bool.and_eq_true, Bool.and_eq_true] at h
  obtain ⟨⟨hname, hsize⟩, htype⟩ := h
  have hmatching : (i.criteria text r).matching [record] = [record] := by
    rw [Criteria.matching, withTypes_eq_self (List.forall_mem_singleton.2 htype),
      withSize_eq_self (List.forall_mem_singleton.2 hsize)]
  rw [Criteria.chosen, hmatching, latest_singleton]
  exact mem_withName.2 ⟨List.mem_singleton_self record, hname⟩

/-- A record that is there twice is a possible duplicate. -/
theorem mem_duplicates_pair (record : Record) : record ∈ duplicates [record, record] := by
  simp [duplicates, clusters, duplicateKeys, List.eraseDups_cons]

/-- A branch that answers with a record can answer with it under another name: a search if the name
has its name term, and the others in any case. -/
theorem exists_mem_response_called {intent : Intent} {files : List Record}
    (hrecord : record ∈ (i.response text r files intent).files) {name : String}
    (hname : intent = .filter → hasName (nameTerm? text) (record.called name) = true) :
    ∃ files', MutuallyComparable files' ∧
      record.called name ∈ (i.response text r files' intent).files := by
  have hsingle : MutuallyComparable [record.called name] := by
    simp [MutuallyComparable]
  cases intent with
  | move => exact ⟨_, hsingle, mem_files_move_singleton i r _⟩
  | filter =>
      -- types and sizes are those of the record
      obtain ⟨htype, hsize⟩ := mem_withSize.1 (Criteria.mem_matching_of_mem_chosen hrecord)
      refine ⟨_, hsingle, mem_chosen_singleton ?_⟩
      rw [Criteria.meets, Bool.and_eq_true, Bool.and_eq_true]
      exact ⟨⟨hname rfl, hsize⟩, (mem_withTypes.1 htype).2⟩
  | sort =>
      refine ⟨_, hsingle, mem_arranged.2 (mem_withTypes.2 ⟨List.mem_singleton_self _, ?_⟩)⟩
      exact (mem_withTypes.1 (mem_arranged.1 hrecord)).2
  | duplicates =>
      exact ⟨[record.called name, record.called name], by simp [MutuallyComparable],
        mem_duplicates_pair _⟩

end Called

/-- A command that lists some file lists one of any name with `Named`; if it is a move, it lists one
of any name. -/
theorem exists_listed_called {i : Interpreter} {command : Option String} {files : List Record}
    {a : Answer} (h : i.process command files = .ok a) {record : Record}
    (hrecord : record ∈ a.files) {name : String} (hname : CallsFor .move (commandText command) ∨
      Named (commandText command) (record.called name)) :
    ∃ files' a', i.process command files' = .ok a' ∧ record.called name ∈ a'.files := by
  cases process_eq_ok_iff.1 h with
  | blank hblank =>
      exact ⟨[record.called name], _, process_eq_ok_iff.2 (.blank hblank),
        List.mem_singleton_self _⟩
  | unknown htext hbranch hsize =>
      exact ⟨[record.called name], _, process_eq_ok_iff.2 (.unknown htext hbranch hsize),
        List.mem_singleton_self _⟩
  | branch r intent _ htext hread hbranch hresponse =>
      obtain ⟨-, rfl⟩ := respond_eq_ok_iff.1 hresponse
      have hnamed : intent = .filter →
          hasName (nameTerm? (commandText command)) (record.called name) = true := by
        rintro rfl
        rw [hasName_iff_named fun _ => settled_of_mem_commandText]
        exact hname.resolve_left (branch?_eq_filter_iff.1 hbranch).1
      obtain ⟨files', hfiles', hmem⟩ := exists_mem_response_called hrecord hnamed
      exact ⟨files', _, process_eq_response hread hbranch fun part hpart =>
        hfiles'.mono (timeOrdered?_sublist hpart).subset, hmem⟩

/-- A record may be called by the name term of a text, or by nothing if the text has none. -/
theorem exists_named_isTermChar {text : List Char} (htext : ∀ c ∈ text, Settled c)
    (record : Record) :
    ∃ name, Named text (record.called name) ∧
      ∀ c ∈ lower name.toList, isTermChar c = true := by
  cases hterm : nameTerm? text with
  | none =>
      refine ⟨"", fun term hmem => ?_, by simp [lower, lowerAfter]⟩
      simp [hterm] at hmem
  | some term =>
      have hlower : lower (String.ofList term).toList = term := by
        rw [String.toList_ofList, lower_of_nameTerm? htext hterm]
      refine ⟨String.ofList term, fun term' hmem => ?_,
        hlower.symm ▸ isTermChar_of_nameTerm? hterm⟩
      obtain rfl := Option.some.inj (hterm.symm.trans hmem)
      show term <:+: lower (String.ofList term).toList
      rw [hlower]

/-- The files that a search lists are `Named`. -/
theorem named_of_process {i : Interpreter} {command : Option String} {files : List Record}
    {a : Answer} (hbranch : i.branch? (commandText command) = some .filter)
    (h : i.process command files = .ok a) {record : Record} (hrecord : record ∈ a.files) :
    Named (commandText command) record := by
  have hsettled : ∀ c ∈ commandText command, Settled c := fun _ => settled_of_mem_commandText
  have hnone := ne_nil_of_callsFor (callsFor_of_branch? hbranch)
  cases process_eq_ok_iff.1 h with
  | blank hblank => exact absurd hblank hnone
  | unknown htext hunknown hsize => simp [hbranch] at hunknown
  | branch r intent _ htext hread hbranch' hresponse =>
      obtain rfl := Option.some.inj (hbranch.symm.trans hbranch')
      obtain ⟨-, rfl⟩ := respond_eq_ok_iff.1 hresponse
      exact (hasName_iff_named hsettled record).1 (mem_withName.1 hrecord).2

/-! ## Searches for a name -/

/-- The command `find files with name containing <term>`. -/
def nameSearch (term : String) : String := "find files with name containing " ++ term

/-- The words in front of the term. -/
def searchWords : List (List Char) := ["find".toList, "files".toList] ++ namingWords

theorem commandText_nameSearch {term : String} (hne : term.toList ≠ [])
    (hlast : StopsBefore isBlank term.toList.reverse) :
    commandText (some (nameSearch term)) =
      [' '].intercalate (searchWords ++ [lower term.toList]) := by
  have htext : (nameSearch term).toList =
      "find files with name containing ".toList ++ term.toList := String.toList_append
  have hparts : (nameSearch term).toList = [' '].intercalate (searchWords ++ [term.toList]) := by
    rw [htext]
    simp [searchWords, namingWords, List.intercalate]
  have hlower : searchWords.map lower = searchWords := by decide
  rw [commandText_intercalate hparts _ (htext ▸ List.suffix_append _ _) hne hlast,
    List.map_append, hlower]
  · rfl
  · rw [htext]
    exact stopsBefore_cons.2 (by decide)

section Texts

variable {body : List Char}

/-- A keyword of the search is one of the words in front or one of what stands behind them. -/
theorem startsWord_search {v : List Char} (hv : WordLike v) :
    StartsWord v ([' '].intercalate (searchWords ++ [body])) ↔
      (∃ part ∈ searchWords, StartsWord v part) ∨ StartsWord v body := by
  rw [startsWord_intercalate hv]
  simp only [List.mem_append, or_and_right, exists_or, List.mem_singleton, exists_eq_left]

/-- The search is a search whatever it is for. -/
theorem callsFor_filter_search (body : List Char) :
    CallsFor .filter ([' '].intercalate (searchWords ++ [body])) := by
  refine ⟨"find", by decide, ?_⟩
  rw [startsWord_search (by decide)]
  exact Or.inl ⟨"find".toList, by decide, by decide⟩

/-- None of the words starts one of `searchWords`. -/
def ApartFromSearch (words : List String) : Prop :=
  ∀ v ∈ words, WordLike v.toList ∧ ∀ part ∈ searchWords, ¬ StartsWord v.toList part

instance (words : List String) : Decidable (ApartFromSearch words) :=
  inferInstanceAs (Decidable (∀ v ∈ words, WordLike v.toList ∧ _))

/-- Such a word occurs in the search only if it does so behind the words in front. -/
theorem occursAny_search {words : List String} (h : ApartFromSearch words) :
    OccursAny words ([' '].intercalate (searchWords ++ [body])) ↔ OccursAny words body := by
  refine exists_congr fun v => and_congr_right fun hv => ?_
  obtain ⟨hword, hfront⟩ := h v hv
  rw [startsWord_search hword]
  exact or_iff_right fun ⟨part, hpart, hstarts⟩ => hfront part hpart hstarts

/-- The words in front make no move of the search. -/
theorem callsFor_move_search :
    CallsFor .move ([' '].intercalate (searchWords ++ [body])) ↔ CallsFor .move body :=
  occursAny_search (by decide)

/-- The name term is what `quotedTerm?` reads behind `searchWords`. -/
theorem nameTerm?_search {term : List Char} (hbody : StopsBefore isBlank body)
    (hterm : quotedTerm? body = some term) (hne : trim term ≠ []) :
    nameTerm? ([' '].intercalate (searchWords ++ [body])) = some (trim term) := by
  have hname : "name".toList ∈ searchWords ++ [body] := by simp [searchWords, namingWords]
  refine nameTerm?_eq_some_trim (infix_intercalate hname) ?_ hne
  rw [searchWords, List.append_assoc]
  exact firstReading?_namingWords (by decide) (by simp) (by simpa using hbody)
    (by simpa using hterm)

/-- Without a word for moving, a search with a name term has the branch `filter`. -/
theorem branch?_search (i : Interpreter)
    (hmove : ¬ CallsFor .move ([' '].intercalate (searchWords ++ [body]))) {term : List Char}
    (hterm : nameTerm? ([' '].intercalate (searchWords ++ [body])) = some term) :
    i.branch? ([' '].intercalate (searchWords ++ [body])) = some .filter :=
  branch?_eq_filter_iff.2 ⟨hmove, callsFor_filter_search body, Or.inl (.name term hterm)⟩

end Texts

/-! ## Quoted names -/

section Quoted

variable (t : String)

/-- The text of a search for a quoted name. -/
def quotedText (t : String) : List Char :=
  [' '].intercalate (searchWords ++ ['\x22' :: (lower t.toList ++ ['\x22'])])

theorem commandText_quoted :
    commandText (some (nameSearch (inQuotes '\x22' t))) = quotedText t := by
  have htext : (inQuotes '\x22' t).toList = ['\x22'] ++ (t.toList ++ ['\x22']) := by
    simp [inQuotes]
  have hseparator : Separator '\x22' ∧ Settled '\x22' := by decide
  have hlower : lower (inQuotes '\x22' t).toList = '\x22' :: (lower t.toList ++ ['\x22']) := by
    have hfront := lower_append_cons hseparator.1 hseparator.2 [] (t.toList ++ ['\x22'])
    have hback := lower_append_cons hseparator.1 hseparator.2 t.toList []
    rw [htext, List.singleton_append]
    rw [List.nil_append] at hfront
    rw [hfront, hback]
    rfl
  rw [commandText_nameSearch (by simp [htext]) _, hlower, quotedText]
  rw [htext, List.reverse_append, List.reverse_append]
  exact stopsBefore_cons.2 (by decide)

theorem quotedText_settled : ∀ c ∈ quotedText t, Settled c := by
  rw [← commandText_quoted]
  exact fun _ => settled_of_mem_commandText

/-- Quotes do not keep a word for moving from making a move of the search. -/
theorem callsFor_move_quotedText :
    CallsFor .move (quotedText t) ↔ CallsFor .move (lower t.toList) := by
  rw [quotedText, callsFor_move_search]
  refine exists_congr fun w => and_congr_right fun hw => ?_
  exact startsWord_quoted (wordLike_triggers .move w hw) (by decide) _

/-- A name that consists of `isTermChar` is the term of the search. -/
theorem nameTerm?_quotedText {t : String} (hchars : ∀ c ∈ lower t.toList, isTermChar c = true)
    (hne : trim (lower t.toList) ≠ []) :
    nameTerm? (quotedText t) = some (trim (lower t.toList)) := by
  have hlower : lower t.toList ≠ [] := by
    intro hnil
    rw [hnil] at hne
    exact hne rfl
  exact nameTerm?_search (stopsBefore_cons.2 (by decide))
    (quotedTerm?_quote (by decide) hlower hchars []) hne

end Quoted

/-- Every file that the search for `"t"` lists has `t` in its name. -/
def Interpreter.FindsNamed (i : Interpreter) (t : String) : Prop :=
  ∀ files a, i.process (some (nameSearch (inQuotes '\x22' t))) files = .ok a →
    ∀ record ∈ a.files, trim (lower t.toList) <:+: lower record.name.toList

section FindsNamed

variable {i : Interpreter} {t : String}

/-- A name that is read whole is in the names of the files that are listed. -/
theorem findsNamed_of_isTermChar (hmove : ¬ CallsFor .move (lower t.toList))
    (hchars : ∀ c ∈ lower t.toList, isTermChar c = true) : i.FindsNamed t := by
  intro files a h record hrecord
  by_cases hblank : trim (lower t.toList) = []
  · rw [hblank]
    exact List.nil_infix
  · have hterm := nameTerm?_quotedText hchars hblank
    rw [← callsFor_move_quotedText] at hmove
    have hbranch : i.branch? (quotedText t) = some .filter := branch?_search i hmove hterm
    rw [← commandText_quoted] at hbranch hterm
    exact named_of_process hbranch h hrecord _ hterm

/-- If the search lists some file and all that it lists have the quoted name, the name is read
whole. -/
theorem isTermChar_of_findsNamed (h : i.FindsNamed t) {files : List Record} {a : Answer}
    (hlists : i.process (some (nameSearch (inQuotes '\x22' t))) files = .ok a)
    (hne : a.files ≠ []) :
    ¬ CallsFor .move (lower t.toList) ∧ ∀ c ∈ lower t.toList, isTermChar c = true := by
  obtain ⟨record, hrecord⟩ := List.exists_mem_of_ne_nil _ hne
  -- whatever name the file can have in the answer contains the quoted one
  have hcalled : ∀ name : String,
      CallsFor .move (quotedText t) ∨ Named (quotedText t) (record.called name) →
        trim (lower t.toList) <:+: lower name.toList := by
    intro name hname
    rw [← commandText_quoted] at hname
    obtain ⟨files', a', hanswer, hmem⟩ := exists_listed_called hlists hrecord hname
    exact h files' a' hanswer _ hmem
  constructor
  · intro hmove
    have hempty := hcalled "" (Or.inl ((callsFor_move_quotedText t).2 hmove))
    have hblank := (trim_eq_nil_iff _).1 (List.infix_nil.1 hempty)
    -- there is no word among blanks
    obtain ⟨w, hw, hstarts⟩ := hmove
    have hword := wordLike_triggers .move w hw
    have hnone := startsWord_append_blanks hword [] hblank
    rw [List.nil_append] at hnone
    exact not_startsWord_nil hword.ne_nil (hnone.1 hstarts)
  · intro c hc
    by_cases hblank : isBlank c = true
    · simp [isTermChar, hblank]
    · -- the file can be called by what is read of the name
      obtain ⟨name, hname, hchars⟩ := exists_named_isTermChar (quotedText_settled t) record
      have hinside := hcalled name (Or.inr hname)
      exact hchars c (hinside.subset (mem_trim hc (by simpa using hblank)))

end FindsNamed

/-- A search for a quoted name has `FindsNamed`, whatever the collection is, exactly if it is no
move and all characters of the name are `isTermChar`, or if it never lists a file. -/
theorem findsNamed_iff (i : Interpreter) (t : String) :
    i.FindsNamed t ↔
      (∀ files a,
          i.process (some (nameSearch (inQuotes '\x22' t))) files = .ok a → a.files = []) ∨
        (¬ CallsFor .move (lower t.toList) ∧ ∀ c ∈ lower t.toList, isTermChar c = true) := by
  constructor
  · intro h
    by_cases hnever : ∀ files a,
        i.process (some (nameSearch (inQuotes '\x22' t))) files = .ok a → a.files = []
    · exact Or.inl hnever
    · push Not at hnever
      obtain ⟨files, a, hlists, hne⟩ := hnever
      exact Or.inr (isTermChar_of_findsNamed h hlists hne)
  · rintro (hnever | ⟨hmove, hchars⟩)
    · intro files a h record hrecord
      rw [hnever files a h] at hrecord
      cases hrecord
    · exact findsNamed_of_isTermChar hmove hchars

/-- The letter `é` is no `isTermChar`: the search for it lists a file without it. -/
theorem quoted_name_not_read_whole :
    ¬ ∀ (i : Interpreter) (t : String), ¬ (∀ c ∈ t.toList, isBlank c = true) →
      (∀ c ∈ t.toList, isQuote c = false ∧ isBracket c = false ∧ c ∉ ['\n', '\r']) →
      i.FindsNamed t := by
  intro hall
  have hfinds := hall (Interpreter.ofSettings {} ⟨0, none⟩ none) "é" (by decide) (by decide)
    [⟨"1", "plan.pdf", "pdf", 2048, ⟨0, none⟩, "plan.pdf"⟩]
    ⟨[⟨"1", "plan.pdf", "pdf", 2048, ⟨0, none⟩, "plan.pdf"⟩], .filter,
      some "Found 1 file(s) matching your criteria", none⟩
    (by decide +kernel) _ List.mem_cons_self
  rw [← occursIn_iff_infix] at hfinds
  exact absurd hfinds (by decide +kernel)

end FileClerk
