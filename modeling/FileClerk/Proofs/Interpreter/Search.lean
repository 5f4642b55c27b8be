import FileClerk.Proofs.Collection.StableSort
import FileClerk.Proofs.Command.NameTerm
import FileClerk.Proofs.Interpreter.Commute
import FileClerk.Proofs.Interpreter.TypeWord

/-!
# What a search lists

A search goes by types and sizes first. `InScope` says which records have those that the command
asks for: a size phrase counts before the words for large and small. Of these records the search
takes the newest or the oldest ones if it is asked to, and of those it lists the ones whose names
contain the name term. `Lists` puts the three steps together, and the answer to a search lists the
files that it describes (`process_lists`).

What a limit cuts off stands behind what it keeps in an order by time, and there is one such order
that leaves ties in their places. So a higher limit only adds files at the end
(`ListsByTime.prefix_of_le`).
-/

set_option autoImplicit false

namespace FileClerk

open FileClerk.Text FileClerk.Command FileClerk.Collection

/-! ## Records in scope -/

/-- The record has one of the types that the command names, and its size lies beyond `r.threshold`,
or else beyond the one that words for large and small stand for. -/
structure Interpreter.InScope (i : Interpreter) (text : List Char) (r : Reading)
    (record : Record) : Prop where
  type : r.typeWords ≠ [] →
    ∃ x ∈ i.catalogue.expand r.typeWords, lowered x = lowered record.extension
  phrase : ∀ t ∈ r.threshold, t.admits record.size = true
  large : r.threshold = none → OccursAny largeWords text → i.settings.largeBytes < record.size
  small : r.threshold = none → ¬ OccursAny largeWords text → OccursAny smallWords text →
    record.size < i.settings.smallBytes

/-- The name of the record contains `nameTerm? text`, if there is one. -/
def Named (text : List Char) (record : Record) : Prop :=
  ∀ term ∈ nameTerm? text, term <:+: lower record.name.toList

section Scope

variable {i : Interpreter} {text : List Char} {r : Reading}

theorem inScope_iff_and (record : Record) : i.InScope text r record ↔
    (r.typeWords ≠ [] →
      ∃ x ∈ i.catalogue.expand r.typeWords, lowered x = lowered record.extension) ∧
    (∀ t ∈ r.threshold, t.admits record.size = true) ∧
    (r.threshold = none → OccursAny largeWords text → i.settings.largeBytes < record.size) ∧
    (r.threshold = none → ¬ OccursAny largeWords text → OccursAny smallWords text →
      record.size < i.settings.smallBytes) :=
  ⟨fun h => ⟨h.type, h.phrase, h.large, h.small⟩, fun h => ⟨h.1, h.2.1, h.2.2.1, h.2.2.2⟩⟩

instance (record : Record) : Decidable (i.InScope text r record) :=
  decidable_of_iff _ (inScope_iff_and record).symm

instance (record : Record) : Decidable (Named text record) :=
  inferInstanceAs (Decidable (∀ term ∈ nameTerm? text, _))

/-- Words of a catalogue without empty entries cover some extension each. -/
theorem expand_ne_nil (h : ∀ entry ∈ i.catalogue.expansions, entry.2 ≠ []) {words : List String}
    (hwords : words ≠ []) : i.catalogue.expand words ≠ [] := by
  obtain ⟨word, words, rfl⟩ := List.exists_cons_of_ne_nil hwords
  have hcovered : i.catalogue.covered word ≠ [] := by
    rw [Catalogue.covered, Catalogue.listed?]
    cases hfound : i.catalogue.expansions.lookup (lowered word) with
    | none => exact List.cons_ne_nil _ _
    | some extensions =>
        exact h (lowered word, extensions) (mem_of_lookup hfound)
  rw [Catalogue.expand, List.flatMap_cons]
  exact List.append_ne_nil_of_left_ne_nil hcovered _

theorem hasType_iff (h : ∀ entry ∈ i.catalogue.expansions, entry.2 ≠ []) (words : List String)
    (record : Record) : hasType (i.catalogue.expand words) record = true ↔
      (words ≠ [] → ∃ x ∈ i.catalogue.expand words, lowered x = lowered record.extension) := by
  rw [hasType_eq_true_iff]
  by_cases hwords : words = []
  · simp [hwords, Catalogue.expand]
  · simp [hwords, expand_ne_nil h hwords]

theorem hasSize_iff (i : Interpreter) (text : List Char) (r : Reading) (record : Record) :
    hasSize (r.threshold.or (i.vagueThreshold text)) record = true ↔
      (∀ t ∈ r.threshold, t.admits record.size = true) ∧
      (r.threshold = none → OccursAny largeWords text → i.settings.largeBytes < record.size) ∧
      (r.threshold = none → ¬ OccursAny largeWords text → OccursAny smallWords text →
        record.size < i.settings.smallBytes) := by
  cases hthreshold : r.threshold with
  | some t => simp [hasSize]
  | none =>
      -- without a phrase the words decide, those for large before those for small
      have hlarge : containsAny text largeWords = true ↔ OccursAny largeWords text :=
        containsAny_iff_occursAny (by decide) text
      have hsmall : containsAny text smallWords = true ↔ OccursAny smallWords text :=
        containsAny_iff_occursAny (by decide) text
      rw [← hlarge, ← hsmall, Option.none_or, Interpreter.vagueThreshold]
      cases containsAny text largeWords <;> cases containsAny text smallWords <;>
        simp [hasSize, Threshold.admits]

/-- The records in scope are those that have the types and sizes of the search. -/
theorem inScope_iff (h : ∀ entry ∈ i.catalogue.expansions, entry.2 ≠ []) (record : Record) :
    i.InScope text r record ↔ hasType (i.catalogue.expand r.typeWords) record = true ∧
      hasSize (r.threshold.or (i.vagueThreshold text)) record = true := by
  rw [hasType_iff h, hasSize_iff, inScope_iff_and]

/-- The records that match the types and sizes of a search are those `InScope`. -/
theorem matching_eq_filter (h : ∀ entry ∈ i.catalogue.expansions, entry.2 ≠ [])
    (files : List Record) :
    (i.criteria text r).matching files = files.filter fun record => i.InScope text r record := by
  have hthreshold : (i.criteria text r).threshold = r.threshold.or (i.vagueThreshold text) := rfl
  rw [Criteria.matching, getD_extensions, withTypes_eq_filter, withSize_eq_filter,
    List.filter_filter, hthreshold]
  refine List.filter_congr fun record _ => ?_
  rw [Bool.eq_iff_iff, Bool.and_eq_true, decide_eq_true_eq, inScope_iff h, and_comm]

/-- The text of a command is in lower case. -/
theorem settled_of_mem_commandText {command : Option String} {c : Char}
    (h : c ∈ commandText command) : Settled c :=
  settled_of_mem_lower h

/-- The term of a text in lower case is in lower case. -/
theorem lower_of_nameTerm? (htext : ∀ c ∈ text, Settled c) {term : List Char}
    (h : nameTerm? text = some term) : lower term = term :=
  lower_eq_self (forall_of_nameTerm? h (by decide) fun c hc _ => htext c hc)

/-- For a text in lower case `hasName` is `Named`. -/
theorem hasName_iff_named (htext : ∀ c ∈ text, Settled c) (record : Record) :
    hasName (nameTerm? text) record = true ↔ Named text record := by
  unfold Named
  cases hterm : nameTerm? text with
  | none => simp [hasName]
  | some term =>
      rw [hasName, Option.all_some, nameContains, lower_of_nameTerm? htext hterm,
        Bool.or_eq_true, occursIn_iff_infix, List.isEmpty_iff]
      constructor
      · rintro (rfl | hinfix) t ht
        · cases ht
          exact List.nil_infix
        · cases ht
          exact hinfix
      · exact fun hnamed => Or.inr (hnamed term rfl)

/-- Selecting by names takes the records that are named. -/
theorem withName_eq_filter_named (htext : ∀ c ∈ text, Settled c) (files : List Record) :
    withName (nameTerm? text) files = files.filter fun record => Named text record := by
  rw [withName_eq_filter]
  refine List.filter_congr fun record _ => ?_
  rw [Bool.eq_iff_iff, decide_eq_true_eq, hasName_iff_named htext]

end Scope

/-! ## Records by time -/

/-- The listed files are `Named` files of the scope in their order by time: all of them if the text
says so, else those among the first ones up to `recentLimit`. None that is cut off would have to
stand before one that is kept. -/
def Interpreter.ListsByTime (i : Interpreter) (newestFirst : Bool) (text : List Char)
    (scope found : List Record) : Prop :=
  ∃ ordered, StableByTime newestFirst scope ordered ∧
    (HasWord allWord.toList text → found = ordered.filter fun record => Named text record) ∧
    (¬ HasWord allWord.toList text →
      found = ((ordered.take i.settings.recentLimit).filter fun record => Named text record) ∧
      ∀ kept ∈ ordered.take i.settings.recentLimit,
        ∀ cut ∈ ordered.drop i.settings.recentLimit, InTime newestFirst kept cut)

section ByTime

variable {i i' : Interpreter} {newestFirst : Bool} {text : List Char}
  {scope found found' : List Record}

/-- A higher `recentLimit` adds files at the end. -/
theorem Interpreter.ListsByTime.prefix_of_le (h : i.ListsByTime newestFirst text scope found)
    (h' : i'.ListsByTime newestFirst text scope found')
    (hle : i.settings.recentLimit ≤ i'.settings.recentLimit) : found <+: found' := by
  obtain ⟨ordered, hordered, hall, hlimit⟩ := h
  obtain ⟨ordered', hordered', hall', hlimit'⟩ := h'
  obtain rfl := hordered.unique hordered'
  by_cases hword : HasWord allWord.toList text
  · exact (hall hword).trans (hall' hword).symm ▸ List.prefix_rfl
  · rw [(hlimit hword).1, (hlimit' hword).1]
    exact (List.take_prefix_take_left hle).filter _

/-- The newest or oldest records of a search stand in order by time up to the limit. -/
theorem listsByTime_upTo (i : Interpreter) (newestFirst : Bool) (htext : ∀ c ∈ text, Settled c)
    (scope : List Record) : i.ListsByTime newestFirst text scope (withName (nameTerm? text)
      (upTo (i.recencyLimit text) (arranged (some .date) newestFirst scope))) := by
  have hstable := stableByTime_arranged newestFirst scope
  have hword := containsWord_iff (v := allWord) (by decide) text
  refine ⟨_, hstable, fun hall => ?_, fun hall => ⟨?_, ?_⟩⟩
  · have hlimit : i.recencyLimit text = none := if_pos (hword.2 hall)
    rw [hlimit, withName_eq_filter_named htext]
    rfl
  · have hlimit : i.recencyLimit text = some (i.settings.recentLimit : Int) :=
      if_neg fun hcontains => hall (hword.1 hcontains)
    have hnonneg : ¬ ((i.settings.recentLimit : Int) < 0) := by omega
    rw [hlimit, withName_eq_filter_named htext]
    simp only [upTo, if_neg hnonneg, Int.toNat_natCast]
  · -- what is kept stands before what is cut off
    have hsplit := hstable.inTime
    rw [← List.take_append_drop i.settings.recentLimit (arranged _ newestFirst scope),
      List.pairwise_append] at hsplit
    exact hsplit.2.2

end ByTime

/-! ## Searches -/

/-- The files that a search lists: the `Named` files that are `InScope`, in their order if no word
for new or old is there, else by time. Words for new count before words for old. -/
structure Interpreter.Lists (i : Interpreter) (text : List Char) (r : Reading)
    (files found : List Record) : Prop where
  inPlace : ¬ OccursAny (recentWords ++ oldWords) text →
    found = files.filter fun record => i.InScope text r record ∧ Named text record
  newest : OccursAny recentWords text →
    i.ListsByTime true text (files.filter fun record => i.InScope text r record) found
  oldest : ¬ OccursAny recentWords text → OccursAny oldWords text →
    i.ListsByTime false text (files.filter fun record => i.InScope text r record) found

section Searches

variable {i : Interpreter} {command : Option String} {text : List Char} {r : Reading}
  {files found found' : List Record}

/-- The files that a search chooses have `Lists`. -/
theorem lists_chosen (h : ∀ entry ∈ i.catalogue.expansions, entry.2 ≠ [])
    (htext : ∀ c ∈ text, Settled c) (files : List Record) :
    i.Lists text r files ((i.criteria text r).chosen files) := by
  have hrecent : containsAny text recentWords = true ↔ OccursAny recentWords text :=
    containsAny_iff_occursAny (by decide) text
  have hold : containsAny text oldWords = true ↔ OccursAny oldWords text :=
    containsAny_iff_occursAny (by decide) text
  have hchosen : (i.criteria text r).chosen files = withName (nameTerm? text)
      ((i.criteria text r).latest (files.filter fun record => i.InScope text r record)) := by
    rw [← matching_eq_filter h]
    rfl
  rw [hchosen]
  -- no words for age, words for new, or words for old alone
  refine ⟨fun hage => ?_, fun hnew => ?_, fun hnew hage => ?_⟩
  · have hrecency : (i.criteria text r).recency = none := recency?_eq_none hage
    rw [Criteria.latest, hrecency, withName_eq_filter_named htext, List.filter_filter]
    refine List.filter_congr fun record _ => ?_
    rw [Bool.eq_iff_iff, Bool.and_eq_true, decide_eq_true_eq, decide_eq_true_eq,
      decide_eq_true_eq, and_comm]
  · have hrecency : (i.criteria text r).recency = some true := if_pos (hrecent.2 hnew)
    rw [Criteria.latest, hrecency]
    exact listsByTime_upTo i true htext _
  · have hrecency : (i.criteria text r).recency = some false := by
      have hnone : recency? text = some false := by
        rw [recency?, if_neg fun hcontains => hnew (hrecent.1 hcontains), if_pos (hold.2 hage)]
      exact hnone
    rw [Criteria.latest, hrecency]
    exact listsByTime_upTo i false htext _

/-- The interpreter with another `recentLimit`. -/
def Interpreter.withRecentLimit (i : Interpreter) (n : Nat) (hn : 0 < n) : Interpreter :=
  { i with settings := { i.settings with recentLimit := n, recentLimit_pos := hn } }

/-- The limit does not count for what is in scope. -/
theorem inScope_withRecentLimit_iff {n : Nat} {hn : 0 < n} (record : Record) :
    (i.withRecentLimit n hn).InScope text r record ↔ i.InScope text r record := by
  rw [inScope_iff_and, inScope_iff_and]
  rfl

/-- A higher limit adds files at the end of what is listed. -/
theorem Interpreter.Lists.prefix_of_le {n : Nat} {hn : 0 < n} (h : i.Lists text r files found)
    (h' : (i.withRecentLimit n hn).Lists text r files found')
    (hle : i.settings.recentLimit ≤ n) : found <+: found' := by
  have hscope : (files.filter fun record => (i.withRecentLimit n hn).InScope text r record) =
      files.filter fun record => i.InScope text r record :=
    List.filter_congr fun record _ => decide_eq_decide.2 (inScope_withRecentLimit_iff record)
  by_cases hnew : OccursAny recentWords text
  · exact (h.newest hnew).prefix_of_le (hscope ▸ h'.newest hnew) hle
  · by_cases hold : OccursAny oldWords text
    · exact (h.oldest hnew hold).prefix_of_le (hscope ▸ h'.oldest hnew hold) hle
    · have hage : ¬ OccursAny (recentWords ++ oldWords) text := by
        rw [occursAny_append]
        exact not_or.2 ⟨hnew, hold⟩
      have hsame : found' = found := by
        rw [h.inPlace hage, h'.inPlace hage]
        refine List.filter_congr fun record _ => decide_eq_decide.2 ?_
        rw [inScope_withRecentLimit_iff]
      exact hsame ▸ List.prefix_rfl

/-- The limit does not count for the branch. -/
theorem branch?_withRecentLimit {n : Nat} {hn : 0 < n} (h : i.branch? text = some .filter) :
    (i.withRecentLimit n hn).branch? text = some .filter := by
  rw [branch?_eq_filter_iff] at h ⊢
  have hnames : (i.withRecentLimit n hn).NamesCriterion text ↔ i.NamesCriterion text := by
    rw [namesCriterion_iff, namesCriterion_iff]
    rfl
  rwa [hnames]

/-- A search over records that can be compared lists the files that it describes. -/
theorem process_lists_of_read (h : ∀ entry ∈ i.catalogue.expansions, entry.2 ≠ [])
    (hread : i.read (command.getD "") (commandText command) = .ok r)
    (hbranch : i.branch? (commandText command) = some .filter)
    (hfiles : MutuallyComparable files) :
    ∃ a, i.process command files = .ok a ∧ a.action = .filter ∧
      i.Lists (commandText command) r files a.files := by
  have htext : ∀ c ∈ commandText command, Settled c := fun _ => settled_of_mem_commandText
  refine ⟨_, process_eq_response hread hbranch fun part hpart => ?_, rfl,
    lists_chosen h htext files⟩
  exact hfiles.mono (timeOrdered?_sublist hpart).subset

/-- A search over records that are `MutuallyComparable` has an answer that `Lists` the `Named` files
that are `InScope`: in their places, or by time up to the limit if there are words for new or old. A
higher limit adds files at the end. The extensions are those that the type words cover, also without
regard to lower-case forms if catalogue and records are in normal form. -/
theorem process_lists (h : ∀ entry ∈ i.catalogue.expansions, entry.2 ≠ [])
    (hread : i.read (command.getD "") (commandText command) = .ok r)
    (hbranch : i.branch? (commandText command) = some .filter)
    (hfiles : MutuallyComparable files) :
    ∃ a, i.process command files = .ok a ∧ a.action = .filter ∧
      i.Lists (commandText command) r files a.files ∧
      (∀ n (hn : 0 < n), i.settings.recentLimit ≤ n →
        ∃ a', (i.withRecentLimit n hn).process command files = .ok a' ∧ a.files <+: a'.files) ∧
      (i.catalogue.InNormalForm → ∀ record : Record, record.Built →
        ((∃ x ∈ i.catalogue.expand r.typeWords, lowered x = lowered record.extension) ↔
          record.extension ∈ i.catalogue.expand r.typeWords)) := by
  obtain ⟨a, ha, haction, hlists⟩ := process_lists_of_read h hread hbranch hfiles
  refine ⟨a, ha, haction, hlists, fun n hn hle => ?_, fun hnormal record hbuilt => ?_⟩
  · -- the command is read in the same way, whatever the limit
    have hread' : (i.withRecentLimit n hn).read (command.getD "") (commandText command) = .ok r :=
      hread
    obtain ⟨a', ha', -, hlists'⟩ :=
      process_lists_of_read (i := i.withRecentLimit n hn) h hread'
        (branch?_withRecentLimit hbranch) hfiles
    exact ⟨a', ha', hlists.prefix_of_le hlists' hle⟩
  · exact exists_lowered_iff_mem (fun x hx => hnormal.normal_of_mem_expand
      (typeWords_subset_vocabulary hread) hx) hbuilt

end Searches

/-- The newest images of the sample above a size. -/
theorem process_lists_sample :
    ∃ a, (Interpreter.ofSettings {} ⟨0, none⟩ none).process
        (some "Show recent images larger than 1 kb") (sample sampleFolder) = .ok a ∧
      a.action = .filter ∧
      (Interpreter.ofSettings {} ⟨0, none⟩ none).Lists
        (commandText (some "Show recent images larger than 1 kb"))
        ⟨["image"], some ⟨.greater, 1024⟩, none, [.filter]⟩ (sample sampleFolder) a.files ∧
      (∀ n (hn : 0 < n), (Interpreter.ofSettings {} ⟨0, none⟩ none).settings.recentLimit ≤ n →
        ∃ a', ((Interpreter.ofSettings {} ⟨0, none⟩ none).withRecentLimit n hn).process
            (some "Show recent images larger than 1 kb") (sample sampleFolder) = .ok a' ∧
          a.files <+: a'.files) ∧
      ((Interpreter.ofSettings {} ⟨0, none⟩ none).catalogue.InNormalForm →
        ∀ record : Record, record.Built →
          ((∃ x ∈ (Interpreter.ofSettings {} ⟨0, none⟩ none).catalogue.expand ["image"],
              lowered x = lowered record.extension) ↔
            record.extension ∈
              (Interpreter.ofSettings {} ⟨0, none⟩ none).catalogue.expand ["image"])) :=
  process_lists (by decide) (by decide +kernel) (by decide +kernel) (by decide)

end FileClerk
