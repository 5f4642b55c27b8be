import FileClerk.Collection.Basic
import FileClerk.Proofs.Command.NameTerm
import FileClerk.Proofs.Command.SizeGrammar
import FileClerk.Proofs.Command.Strip
import FileClerk.Proofs.Interpreter.Commute
import FileClerk.Proofs.Interpreter.Failure

/-!
# Search verbs in front of other commands

A search that names no criterion gives way to a sort or to a search for duplicates, so a search verb
in front of such a command should change nothing. The verb and the blanks behind it bring in no word
that counts, and the text behind them says what it said before: the same intents, sort keys, types,
sizes and ages. What is left is the name term. A sort by name may be followed by the word for its
direction, and behind a search verb that word is read as a part of file names to look for, which is
a criterion (`process_behindVerb_iff`, `verb_before_name_order`).
-/

set_option autoImplicit false

namespace FileClerk

open FileClerk.Text FileClerk.Command FileClerk.Collection

/-! ## The verbs -/

/-- The command `<verb> <command>`. -/
def behindVerb (verb command : String) : String := verb ++ " " ++ command

/-- The triggers of `filter` are words without a bracket and without `name` in them. -/
theorem search_verbs : ∀ v ∈ Intent.filter.triggers, WordLike v.toList ∧
    BracketFree v.toList ∧ occursIn ['n', 'a', 'm', 'e'] v.toList = false := by
  decide

/-- Neither `sizePhrase?` nor `nameTermAt?` reads anything at a search verb. -/
theorem search_verbs_read : ∀ v ∈ Intent.filter.triggers, ∀ rest,
    sizePhrase? none (v.toList ++ rest) = none ∧ nameTermAt? none (v.toList ++ rest) = none := by
  simp only [Intent.triggers, List.forall_mem_cons, List.not_mem_nil, IsEmpty.forall_iff,
    implies_true, and_true]
  refine ⟨?_, ?_, ?_, ?_, ?_, ?_, ?_, ?_⟩
  -- each verb differs from every comparing word and from "name" in its first two letters
  all_goals exact fun rest => ⟨rfl, rfl⟩

/-- The words are in one piece, and none of them starts a trigger of `filter`. -/
def SparesVerbs (words : List String) : Prop :=
  ∀ w ∈ words, Unbroken (lower w.toList) ∧
    ∀ v ∈ Intent.filter.triggers, ¬ StartsWord (lower w.toList) v.toList

instance (words : List String) : Decidable (SparesVerbs words) := List.decidableBAll _ words

theorem SparesVerbs.mono {words words' : List String} (h : SparesVerbs words')
    (hsub : words ⊆ words') : SparesVerbs words := fun w hw => h w (hsub hw)

theorem sparesVerbs_standard : SparesVerbs Catalogue.standard.vocabulary := by
  decide +kernel

/-- The words that a text is searched for besides the triggers of `filter` and type words: those for
other intents, for sort keys and their orders, for vague sizes and for ages. -/
def otherKeywords : List String :=
  [Intent.move, .sort, .duplicates].flatMap Intent.triggers ++
    ([SortKey.size, .date, .name].flatMap (fun key => key.words ++ key.descendingWords) ++
      (largeWords ++ smallWords ++ (recentWords ++ oldWords)))

theorem sparesVerbs_otherKeywords : SparesVerbs otherKeywords := by
  decide

theorem sparesVerbs_triggers {intent : Intent} (h : intent ≠ .filter) :
    SparesVerbs intent.triggers := by
  have hintent : intent ∈ [Intent.move, .sort, .duplicates] := by
    cases intent with
    | filter => exact absurd rfl h
    | move => decide
    | sort => decide
    | duplicates => decide
  refine sparesVerbs_otherKeywords.mono fun w hw => List.mem_append_left _ ?_
  exact List.mem_flatMap.2 ⟨intent, hintent, hw⟩

theorem sparesVerbs_sortKey (key : SortKey) : SparesVerbs (key.words ++ key.descendingWords) := by
  have hkey : key ∈ [SortKey.size, .date, .name] := by
    cases key with
    | size => decide
    | date => decide
    | name => decide
  refine sparesVerbs_otherKeywords.mono fun w hw => List.mem_append_right _ ?_
  exact List.mem_append_left _ (List.mem_flatMap.2 ⟨key, hkey, hw⟩)

theorem sparesVerbs_vague_age :
    SparesVerbs (largeWords ++ smallWords) ∧ SparesVerbs (recentWords ++ oldWords) := by
  have hall : SparesVerbs (largeWords ++ smallWords ++ (recentWords ++ oldWords)) :=
    sparesVerbs_otherKeywords.mono fun _ hw =>
      List.mem_append_right _ (List.mem_append_right _ hw)
  exact ⟨hall.mono (List.subset_append_left _ _), hall.mono (List.subset_append_right _ _)⟩

/-! ## The text behind a verb -/

/-- The text `text'` is `text` behind a search verb and a gap. -/
def FollowsVerb (text text' : List Char) : Prop :=
  ∃ v ∈ Intent.filter.triggers, ∃ gap, gap ≠ [] ∧ Blanks gap ∧ text' = v.toList ++ (gap ++ text)

/-- The text of a command behind a verb is the text of the command behind the verb and a gap. -/
theorem followsVerb_behindVerb {v : String} (hv : v ∈ Intent.filter.triggers) {s : String}
    (hs : commandText (some s) ≠ []) :
    FollowsVerb (commandText (some s)) (commandText (some (behindVerb v s))) := by
  have htext : commandText (some s) = lower (trim s.toList) := rfl
  have hword := (search_verbs v hv).1
  have hlead : Blanks (s.toList.takeWhile isBlank) := fun c hc => List.mem_takeWhile_imp hc
  have htrim : trim s.toList ≠ [] := by
    rintro hempty
    rw [htext, hempty] at hs
    exact hs rfl
  refine ⟨v, hv, ' ' :: s.toList.takeWhile isBlank, by simp, ?_, ?_⟩
  · exact List.forall_mem_cons.2 ⟨by decide, hlead⟩
  · -- only the blanks at the end of the command are cut off
    have hcut : trim (behindVerb v s).toList =
        v.toList ++ ' ' :: (s.toList.takeWhile isBlank ++ trim s.toList) := by
      have hcommand : (behindVerb v s).toList =
          (v.toList ++ ' ' :: (s.toList.takeWhile isBlank ++ trim s.toList)) ++
            ((s.toList.dropWhile isBlank).reverse.takeWhile isBlank).reverse := by
        have hparts := takeWhile_append_trim_append s.toList
        have hchars : (behindVerb v s).toList = v.toList ++ ' ' :: s.toList := by
          simp [behindVerb]
        rw [hchars, List.append_assoc, List.cons_append, List.append_assoc, hparts]
      rw [hcommand]
      apply trim_append_blanks
      · simp
      · refine stopsBefore_append hword.ne_nil (.of_forall fun c hc => ?_) _
        exact isBlank_of_isWordChar (hword.classes c hc)
      · have hback : StopsBefore isBlank (trim s.toList).reverse := by
          rw [trim, List.reverse_reverse]
          exact stopsBefore_dropWhile isBlank _
        rw [← List.cons_append, ← List.append_assoc, List.reverse_append]
        exact stopsBefore_append (by simpa using htrim) hback _
      · exact fun c hc => List.mem_takeWhile_imp (List.mem_reverse.1 hc)
    rw [commandText, normalized, Option.getD_some, hcut,
      lower_append_space, lower_blanks_append hlead, lower_triggers .filter v hv, htext]
    rfl

namespace FollowsVerb

variable {text text' : List Char}

/-- A word that spares the verbs starts a word behind the verb or none. -/
theorem startsWord_iff (h : FollowsVerb text text') {words : List String}
    (hwords : SparesVerbs words) {w : String} (hw : w ∈ words) :
    StartsWord (lower w.toList) text' ↔ StartsWord (lower w.toList) text := by
  obtain ⟨v, hv, gap, hne, hgap, rfl⟩ := h
  obtain ⟨hunbroken, hspares⟩ := hwords w hw
  rw [startsWord_append_gap hunbroken hne hgap, or_iff_right (hspares v hv)]

theorem containsAny_eq (h : FollowsVerb text text') {words : List String}
    (hwords : SparesVerbs words) : containsAny text' words = containsAny text words := by
  rw [Bool.eq_iff_iff, containsAny_iff, containsAny_iff]
  exact exists_congr fun w => and_congr_right fun hw => h.startsWord_iff hwords hw

theorem containsAny_append_eq (h : FollowsVerb text text') {words more : List String}
    (hwords : SparesVerbs (words ++ more)) :
    containsAny text' words = containsAny text words ∧
      containsAny text' more = containsAny text more :=
  ⟨h.containsAny_eq (hwords.mono (List.subset_append_left _ _)),
    h.containsAny_eq (hwords.mono (List.subset_append_right _ _))⟩

/-! ### Intents and sort keys -/

theorem callsFor_iff (h : FollowsVerb text text') (intent : Intent) (hintent : intent ≠ .filter) :
    CallsFor intent text' ↔ CallsFor intent text := by
  rw [← containsAny_triggers_iff, ← containsAny_triggers_iff,
    h.containsAny_eq (sparesVerbs_triggers hintent)]

theorem callsFor_filter (h : FollowsVerb text text') : CallsFor .filter text' := by
  obtain ⟨v, hv, gap, -, -, rfl⟩ := h
  exact ⟨v, hv, .at_start (List.prefix_append _ _)⟩

theorem chooseSortKey_eq (h : FollowsVerb text text') :
    chooseSortKey text' = chooseSortKey text := by
  have hkeys : ∀ key : SortKey, containsAny text' key.words = containsAny text key.words ∧
      containsAny text' key.descendingWords = containsAny text key.descendingWords :=
    fun key => h.containsAny_append_eq (sparesVerbs_sortKey key)
  simp only [chooseSortKey, (hkeys _).1, (hkeys _).2]

/-! ### Criteria -/

theorem typeWords_eq_nil_iff (h : FollowsVerb text text') {vocabulary : List String}
    (hwords : SparesVerbs vocabulary) :
    typeWords (stripDestination false text') vocabulary = [] ↔
      typeWords (stripDestination false text) vocabulary = [] := by
  have hstrip : FollowsVerb (stripDestination false text) (stripDestination false text') := by
    obtain ⟨v, hv, gap, hne, hgap, rfl⟩ := h
    refine ⟨v, hv, gap, hne, hgap, ?_⟩
    have hblank : BracketFree gap := by
      intro c hc
      rw [← Bool.not_eq_true]
      exact fun hbracket => (classes_of_isBracket hbracket).2.1 (hgap c hc)
    -- no group starts in the verb or in the gap, so both are kept
    have hfront : BracketFree (v.toList ++ gap) := .append (search_verbs v hv).2.1 hblank
    have hout := blankOut_bracketGroup_append hfront text
    rw [List.append_assoc, List.append_assoc] at hout
    exact hout
  simp only [List.eq_nil_iff_forall_not_mem, mem_typeWords, not_and]
  exact forall_congr' fun w => forall_congr' fun hw => not_congr (hstrip.startsWord_iff hwords hw)

theorem sizePhrase_eq (h : FollowsVerb text text') :
    firstReading? sizePhrase? none text' = firstReading? sizePhrase? none text := by
  obtain ⟨v, hv, gap, hne, hgap, rfl⟩ := h
  exact readsWordStarts_sizePhrase?.firstReading?_append_gap sizePhrase?_isBlank
    (search_verbs v hv).1 hne hgap (search_verbs_read v hv _).1

theorem nameTerm?_eq (h : FollowsVerb text text') : nameTerm? text' = nameTerm? text := by
  obtain ⟨v, hv, gap, hne, hgap, rfl⟩ := h
  obtain ⟨hword, -, hname⟩ := search_verbs v hv
  exact nameTerm?_append_gap hword hne hgap hname text (search_verbs_read v hv _).2

theorem recency?_eq (h : FollowsVerb text text') : recency? text' = recency? text := by
  obtain ⟨hrecent, hold⟩ := h.containsAny_append_eq sparesVerbs_vague_age.2
  rw [recency?, recency?, hrecent, hold]

/-- A search verb brings in no criterion. -/
theorem namesCriterion_iff (h : FollowsVerb text text') {i : Interpreter}
    (hi : SparesVerbs i.catalogue.vocabulary) :
    i.NamesCriterion text' ↔ i.NamesCriterion text := by
  have hvague : i.vagueThreshold text' = i.vagueThreshold text := by
    obtain ⟨hlarge, hsmall⟩ := h.containsAny_append_eq sparesVerbs_vague_age.1
    rw [Interpreter.vagueThreshold, Interpreter.vagueThreshold, hlarge, hsmall]
  rw [FileClerk.namesCriterion_iff, FileClerk.namesCriterion_iff, ne_eq, ne_eq,
    h.typeWords_eq_nil_iff hi, h.sizePhrase_eq, hvague, h.recency?_eq, h.nameTerm?_eq]

end FollowsVerb

/-! ## The answer behind a verb -/

/-- The command is answered by the sort or by the search for duplicates. It `CallsFor` no search,
and it names neither a type nor a size nor an age. -/
structure IsPlainOrder (i : Interpreter) (s : String) : Prop where
  branch : i.branch? (commandText (some s)) = some .sort ∨
    i.branch? (commandText (some s)) = some .duplicates
  search : ¬ CallsFor .filter (commandText (some s))
  types : typeWords (stripDestination false (commandText (some s))) i.catalogue.vocabulary = []
  size : firstReading? sizePhrase? none (commandText (some s)) = none
  vague : ¬ OccursAny (largeWords ++ smallWords) (commandText (some s))
  age : ¬ OccursAny (recentWords ++ oldWords) (commandText (some s))

/-- The only criterion that is left to such a command is `nameTerm?`. -/
theorem IsPlainOrder.namesCriterion_iff {i : Interpreter} {s : String} (h : IsPlainOrder i s) :
    i.NamesCriterion (commandText (some s)) ↔ (nameTerm? (commandText (some s))).isSome = true := by
  rw [FileClerk.namesCriterion_iff, vagueThreshold_isSome_iff, recency?_isSome_iff, h.types, h.size,
    or_iff_right h.vague, or_iff_right h.age]
  simp

/-- What is answered by the sort or by the search for duplicates calls for no move. -/
theorem not_callsFor_move {i : Interpreter} {text : List Char} {intent : Intent}
    (hintent : intent = .sort ∨ intent = .duplicates) (hbranch : i.branch? text = some intent) :
    ¬ CallsFor .move text := by
  intro hcalls
  rw [Interpreter.branch?, if_pos hcalls, Option.some.injEq] at hbranch
  rcases hintent with rfl | rfl
  · cases hbranch
  · cases hbranch

/-- The `branch?` of a sort or a search for duplicates is the same behind a search verb, unless the
search has a criterion. -/
theorem FollowsVerb.branch?_eq {text text' : List Char} (h : FollowsVerb text text')
    {i : Interpreter} (hi : SparesVerbs i.catalogue.vocabulary) {intent : Intent}
    (hintent : intent = .sort ∨ intent = .duplicates) (hsearch : ¬ CallsFor .filter text)
    (hbranch : i.branch? text = some intent) :
    i.branch? text' = some (if i.NamesCriterion text then .filter else intent) := by
  have hmove := not_callsFor_move hintent hbranch
  have hmove' : ¬ CallsFor .move text' := by
    rwa [h.callsFor_iff .move (by decide)]
  by_cases hnames : i.NamesCriterion text
  · rw [if_pos hnames]
    exact branch?_eq_filter_iff.2
      ⟨hmove', h.callsFor_filter, Or.inl ((h.namesCriterion_iff hi).2 hnames)⟩
  · -- the search gives way to what the text calls for
    have hnames' : ¬ i.NamesCriterion text' := by rwa [h.namesCriterion_iff hi]
    have hsort := h.callsFor_iff .sort (by decide)
    have hduplicates := h.callsFor_iff .duplicates (by decide)
    have hcalls := callsFor_of_branch? hbranch
    rw [if_neg hnames]
    rcases hintent with rfl | rfl
    · simp [Interpreter.branch?, hmove', hnames', hsort, hcalls]
    · -- a sort would come first
      have hno : ¬ CallsFor .sort text := by
        intro hyes
        simp [Interpreter.branch?, hmove, hsearch, hyes] at hbranch
      simp [Interpreter.branch?, hmove', hnames', hsort, hduplicates, hcalls, hno]

/-- The last character of the message of an answer. -/
def lastOfMessage (a : Answer) : Option Char := a.message.bind fun m => m.toList.getLast?

/-- The messages of the branches `filter`, `sort` and `duplicates` end in different characters. -/
theorem lastOfMessage_response (i : Interpreter) (text : List Char) (r : Reading)
    (files : List Record) :
    lastOfMessage (i.response text r files .filter) = some 'a' ∧
      lastOfMessage (i.response text r files .sort) = some ')' ∧
      lastOfMessage (i.response text r files .duplicates) = some 's' := by
  refine ⟨?_, ?_, ?_⟩
  · simp only [lastOfMessage, Interpreter.response, Option.bind_some, String.toList_append,
      List.getLast?_append]
    rfl
  · simp only [lastOfMessage, Interpreter.response, Option.bind_some, String.toList_append,
      List.getLast?_append]
    rfl
  · simp only [lastOfMessage, Interpreter.response, findDuplicates, Option.bind_some,
      String.toList_append, List.getLast?_append]
    rfl

/-- Sorts and searches for duplicates of all types of files depend on the text through the sort key
alone. -/
theorem respond_congr {i : Interpreter} {text text' : List Char} {r r' : Reading} {intent : Intent}
    (hintent : intent = .sort ∨ intent = .duplicates)
    (hkey : chooseSortKey text' = chooseSortKey text) (hwords : r'.typeWords = r.typeWords)
    (files : List Record) : i.respond text' r' files intent = i.respond text r files intent := by
  rcases hintent with rfl | rfl
  · simp only [Interpreter.respond, Interpreter.sort, hkey, hwords]
  · rfl

/-- A search verb in front of a command that `IsPlainOrder` changes nothing, exactly if `nameTerm?`
reads nothing in the command. -/
theorem process_behindVerb_iff {i : Interpreter} (hi : SparesVerbs i.catalogue.vocabulary)
    {v : String} (hv : v ∈ Intent.filter.triggers) {s : String} (h : IsPlainOrder i s)
    (files : List Record) :
    i.process (some (behindVerb v s)) files = i.process (some s) files ↔
      nameTerm? (commandText (some s)) = none := by
  obtain ⟨intent, hintent, hbranch⟩ : ∃ intent, (intent = .sort ∨ intent = .duplicates) ∧
      i.branch? (commandText (some s)) = some intent := by
    rcases h.branch with hsort | hduplicates
    · exact ⟨.sort, Or.inl rfl, hsort⟩
    · exact ⟨.duplicates, Or.inr rfl, hduplicates⟩
  have hfollows := followsVerb_behindVerb hv (ne_nil_of_callsFor (callsFor_of_branch? hbranch))
  have hbranch' := hfollows.branch?_eq hi hintent h.search hbranch
  -- both commands are read, and neither names a type or a size
  obtain ⟨r, hread⟩ : ∃ r, i.read s (commandText (some s)) = .ok r := by
    apply exists_read
    simp [SizeTooLarge, h.size]
  obtain ⟨r', hread'⟩ : ∃ r, i.read (behindVerb v s) (commandText (some (behindVerb v s))) =
      .ok r := by
    apply exists_read
    simp [SizeTooLarge, hfollows.sizePhrase_eq, h.size]
  rw [process_eq_respond hread hbranch, process_eq_respond hread' hbranch',
    ← Option.not_isSome_iff_eq_none, ← h.namesCriterion_iff]
  by_cases hnames : i.NamesCriterion (commandText (some s))
  · rw [if_pos hnames]
    refine iff_of_false (fun hsame => ?_) (not_not.2 hnames)
    -- a search without an age does not fail, and its message tells it from the other answers
    have hage : recency? (commandText (some (behindVerb v s))) = none := by
      rw [hfollows.recency?_eq, recency?_eq_none h.age]
    have hsearch : i.respond (commandText (some (behindVerb v s))) r' files .filter =
        .ok (i.response (commandText (some (behindVerb v s))) r' files .filter) := by
      refine respond_eq_ok_iff.2 ⟨fun part hpart => ?_, rfl⟩
      simp [Interpreter.timeOrdered?, hage] at hpart
    rw [hsearch] at hsame
    have hlast := congrArg lastOfMessage (respond_eq_ok_iff.1 hsame.symm).2
    rw [(lastOfMessage_response i _ r' files).1] at hlast
    rcases hintent with rfl | rfl
    · rw [(lastOfMessage_response i _ r files).2.1] at hlast
      cases hlast
    · rw [(lastOfMessage_response i _ r files).2.2] at hlast
      cases hlast
  · -- the same branch answers, from the same sort key and from no type in both
    rw [if_neg hnames]
    refine iff_of_true ?_ hnames
    apply respond_congr hintent hfollows.chooseSortKey_eq
    have hmove := not_callsFor_move hintent hbranch
    have hmove' : ¬ CallsFor .move (commandText (some (behindVerb v s))) := by
      rwa [hfollows.callsFor_iff .move (by decide)]
    rw [typeWords_of_read hread, typeWords_of_read hread', not_contains_move hmove,
      not_contains_move hmove', h.types, hfollows.typeWords_eq_nil_iff hi, h.types]

theorem process_behindVerb_sample :
    SparesVerbs (Interpreter.ofSettings {} ⟨0, none⟩ none).catalogue.vocabulary ∧
      "list" ∈ Intent.filter.triggers ∧
      IsPlainOrder (Interpreter.ofSettings {} ⟨0, none⟩ none) "files sorted by size" ∧
      (Interpreter.ofSettings {} ⟨0, none⟩ none).process
          (some (behindVerb "list" "files sorted by size")) (sample sampleFolder) =
        (Interpreter.ofSettings {} ⟨0, none⟩ none).process (some "files sorted by size")
          (sample sampleFolder) := by
  have hverb : "list" ∈ Intent.filter.triggers := by decide
  have horder : IsPlainOrder (Interpreter.ofSettings {} ⟨0, none⟩ none) "files sorted by size" := {
    branch := by decide +kernel
    search := by decide +kernel
    types := by decide +kernel
    size := by decide +kernel
    vague := by unfold OccursAny; decide +kernel
    age := by unfold OccursAny; decide +kernel }
  have hname : nameTerm? (commandText (some "files sorted by size")) = none := by decide +kernel
  exact ⟨sparesVerbs_standard, hverb, horder,
    (process_behindVerb_iff sparesVerbs_standard hverb horder (sample sampleFolder)).2 hname⟩

/-- In `list files sorted by name descending` the word for the order is taken for a part of file
names, so nothing is found. -/
theorem verb_before_name_order :
    ¬ ∀ (i : Interpreter) (v s : String) (files : List Record),
      SparesVerbs i.catalogue.vocabulary → v ∈ Intent.filter.triggers → IsPlainOrder i s →
        i.process (some (behindVerb v s)) files = i.process (some s) files := by
  intro hall
  have horder : IsPlainOrder (Interpreter.ofSettings {} ⟨0, none⟩ none)
      "files sorted by name descending" := {
    branch := by decide +kernel
    search := by decide +kernel
    types := by decide +kernel
    size := by decide +kernel
    vague := by unfold OccursAny; decide +kernel
    age := by unfold OccursAny; decide +kernel }
  have hsorted : (Interpreter.ofSettings {} ⟨0, none⟩ none).process
      (some "files sorted by name descending") [⟨"1", "plan.pdf", "pdf", 2048, ⟨0, none⟩, ""⟩] =
      .ok ⟨[⟨"1", "plan.pdf", "pdf", 2048, ⟨0, none⟩, ""⟩], .filter, some "Sorted 1 file(s)",
        none⟩ := by
    decide +kernel
  have hfound : (Interpreter.ofSettings {} ⟨0, none⟩ none).process
      (some (behindVerb "list" "files sorted by name descending"))
      [⟨"1", "plan.pdf", "pdf", 2048, ⟨0, none⟩, ""⟩] =
      .ok ⟨[], .filter, some "Found 0 file(s) matching your criteria", none⟩ := by
    decide +kernel
  have hsame := hall _ "list" _ [⟨"1", "plan.pdf", "pdf", 2048, ⟨0, none⟩, ""⟩]
    sparesVerbs_standard (by decide) horder
  rw [hsorted, hfound] at hsame
  cases hsame

end FileClerk
