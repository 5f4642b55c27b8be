import FileClerk.Interpreter
import FileClerk.Proofs.Command.Keyword
import FileClerk.Proofs.Command.SizePhrase

/-!
# Which branch answers a command

The interpreter tries the intents of a command in turn, and a search without a criterion leaves the
command to a later intent. Which intent answers depends on the text alone and not on the files:
`Interpreter.branch?` says which one by a table over the trigger words and the criteria of the text.
The turn of the intents comes to the same (`firstAnswer_intents`), so a command is answered by the
branch of the table, or not understood if the table has none (`run_eq`).

`process_eq_ok_iff` puts the cases of an answer in one relation, and `process_eq_error_iff` those of
a failure. The theory of answers argues by these cases and does not look into the interpreter.
-/

set_option autoImplicit false

namespace FileClerk

open FileClerk.Text FileClerk.Command FileClerk.Collection

/-! ## What a text calls for -/

/-- One of `words` starts a word of `text`. -/
def OccursAny (words : List String) (text : List Char) : Prop :=
  ∃ w ∈ words, StartsWord w.toList text

instance (words : List String) (text : List Char) : Decidable (OccursAny words text) :=
  List.decidableBEx _ words

/-- For keywords in lower case `containsAny` is `OccursAny`. -/
theorem containsAny_iff_occursAny {words : List String}
    (hlower : ∀ w ∈ words, lower w.toList = w.toList) (text : List Char) :
    containsAny text words = true ↔ OccursAny words text := by
  rw [containsAny_iff]
  constructor
  · rintro ⟨w, hw, hstarts⟩
    exact ⟨w, hw, hlower w hw ▸ hstarts⟩
  · rintro ⟨w, hw, hstarts⟩
    exact ⟨w, hw, (hlower w hw).symm ▸ hstarts⟩

/-- One of `intent.triggers` starts a word of `text`. -/
def CallsFor (intent : Intent) (text : List Char) : Prop := OccursAny intent.triggers text

theorem lower_triggers (intent : Intent) : ∀ w ∈ intent.triggers, lower w.toList = w.toList := by
  cases intent with
  | move => decide
  | filter => decide
  | sort => decide
  | duplicates => decide

theorem wordLike_triggers (intent : Intent) : ∀ w ∈ intent.triggers, WordLike w.toList := by
  cases intent with
  | move => decide
  | filter => decide
  | sort => decide
  | duplicates => decide

theorem containsAny_triggers_iff (intent : Intent) (text : List Char) :
    containsAny text intent.triggers = true ↔ CallsFor intent text :=
  containsAny_iff_occursAny (lower_triggers intent) text

instance (intent : Intent) (text : List Char) : Decidable (CallsFor intent text) :=
  decidable_of_iff _ (containsAny_triggers_iff intent text)

/-- A text that calls for something is not empty. -/
theorem ne_nil_of_callsFor {intent : Intent} {text : List Char} (h : CallsFor intent text) :
    text ≠ [] := by
  have hempty : ¬ CallsFor intent [] := by
    cases intent with
    | move => decide
    | filter => decide
    | sort => decide
    | duplicates => decide
  rintro rfl
  exact hempty h

/-- The `intents` of a text are those that it `CallsFor`. -/
theorem mem_intents {intent : Intent} {text : List Char} :
    intent ∈ intents text ↔ CallsFor intent text := by
  have hall : intent ∈ Intent.all := by cases intent <;> decide
  rw [intents, List.mem_filter, containsAny_triggers_iff]
  exact ⟨And.right, fun h => ⟨hall, h⟩⟩

theorem intents_eq_filter (text : List Char) :
    intents text = Intent.all.filter fun intent => decide (CallsFor intent text) := by
  apply List.filter_congr
  intro intent _
  rw [Bool.eq_iff_iff, containsAny_triggers_iff, decide_eq_true_eq]

/-! ## The criteria of a search -/

/-- What a text can name for `_filter` to go by: a type word that stands outside of brackets, a size
phrase, a word for large or small, a word for new or old, or a name term. -/
inductive Interpreter.NamesCriterion (i : Interpreter) (text : List Char) : Prop where
  | typeWord (w : String) : w ∈ i.catalogue.vocabulary →
      StartsWord (lower w.toList) (stripDestination false text) → NamesCriterion i text
  | size (p : SizePhrase) : firstReading? sizePhrase? none text = some p → NamesCriterion i text
  | vagueSize : OccursAny (largeWords ++ smallWords) text → NamesCriterion i text
  | recency : OccursAny (recentWords ++ oldWords) text → NamesCriterion i text
  | name (term : List Char) : nameTerm? text = some term → NamesCriterion i text

theorem occursAny_append (words more : List String) (text : List Char) :
    OccursAny (words ++ more) text ↔ OccursAny words text ∨ OccursAny more text := by
  simp only [OccursAny, List.mem_append, or_and_right, exists_or]

theorem vagueThreshold_isSome_iff (i : Interpreter) (text : List Char) :
    (i.vagueThreshold text).isSome = true ↔ OccursAny (largeWords ++ smallWords) text := by
  rw [occursAny_append, ← containsAny_iff_occursAny (by decide),
    ← containsAny_iff_occursAny (by decide), Interpreter.vagueThreshold]
  cases containsAny text largeWords <;> cases containsAny text smallWords <;> simp

theorem recency?_isSome_iff (text : List Char) :
    (recency? text).isSome = true ↔ OccursAny (recentWords ++ oldWords) text := by
  rw [occursAny_append, ← containsAny_iff_occursAny (by decide),
    ← containsAny_iff_occursAny (by decide), recency?]
  cases containsAny text recentWords <;> cases containsAny text oldWords <;> simp

/-- A text names a criterion when one of the readers of criteria finds something. -/
theorem namesCriterion_iff (i : Interpreter) (text : List Char) :
    i.NamesCriterion text ↔
      typeWords (stripDestination false text) i.catalogue.vocabulary ≠ [] ∨
        (firstReading? sizePhrase? none text).isSome = true ∨
        (i.vagueThreshold text).isSome = true ∨ (recency? text).isSome = true ∨
        (nameTerm? text).isSome = true := by
  rw [vagueThreshold_isSome_iff, recency?_isSome_iff, Option.isSome_iff_exists,
    Option.isSome_iff_exists]
  constructor
  · intro hnames
    cases hnames with
    | typeWord w hw hstarts =>
        exact Or.inl (List.ne_nil_of_mem (mem_typeWords.2 ⟨hw, hstarts⟩))
    | size p hp => exact Or.inr (Or.inl ⟨p, hp⟩)
    | vagueSize hvague => exact Or.inr (Or.inr (Or.inl hvague))
    | recency hrecency => exact Or.inr (Or.inr (Or.inr (Or.inl hrecency)))
    | name term hterm => exact Or.inr (Or.inr (Or.inr (Or.inr ⟨term, hterm⟩)))
  · rintro (htypes | ⟨p, hp⟩ | hvague | hrecency | ⟨term, hterm⟩)
    · obtain ⟨w, hw⟩ := List.exists_mem_of_ne_nil _ htypes
      obtain ⟨hmem, hstarts⟩ := mem_typeWords.1 hw
      exact .typeWord w hmem hstarts
    · exact .size p hp
    · exact .vagueSize hvague
    · exact .recency hrecency
    · exact .name term hterm

instance (i : Interpreter) (text : List Char) : Decidable (i.NamesCriterion text) :=
  decidable_of_iff _ (namesCriterion_iff i text).symm

/-! ## Readings -/

theorem read_eq_ok_iff {i : Interpreter} {command : String} {text : List Char} {r : Reading} :
    i.read command text = .ok r ↔
      ∃ threshold, sizeThreshold text = .ok threshold ∧
        r = ⟨typeWords (stripDestination ((intents text).contains .move) text)
            i.catalogue.vocabulary, threshold,
          (namedFolder? (trim command.toList)).map String.ofList, intents text⟩ := by
  unfold Interpreter.read
  cases sizeThreshold text with
  | error fault => simp [bind, Except.bind]
  | ok threshold => simp [bind, Except.bind, pure, Except.pure, eq_comm]

/-- Reading fails exactly if the text is `SizeTooLarge`. -/
theorem read_eq_error_iff {i : Interpreter} {command : String} {text : List Char}
    {fault : CommandFault} :
    i.read command text = .error fault ↔ fault = .sizeOutOfRange ∧ SizeTooLarge text := by
  rw [← sizeThreshold_eq_error_iff]
  unfold Interpreter.read
  cases sizeThreshold text with
  | error fault' => simp [bind, Except.bind]
  | ok threshold => simp [bind, Except.bind, pure, Except.pure]

/-- A command whose size is in range is read. -/
theorem exists_read {i : Interpreter} {text : List Char} (command : String)
    (h : ¬ SizeTooLarge text) : ∃ r, i.read command text = .ok r := by
  cases hread : i.read command text with
  | error fault => exact absurd (read_eq_error_iff.1 hread).2 h
  | ok r => exact ⟨r, rfl⟩

theorem intents_of_read {i : Interpreter} {command : String} {text : List Char} {r : Reading}
    (h : i.read command text = .ok r) : r.intents = intents text := by
  obtain ⟨threshold, -, rfl⟩ := read_eq_ok_iff.1 h
  rfl

theorem typeWords_of_read {i : Interpreter} {command : String} {text : List Char} {r : Reading}
    (h : i.read command text = .ok r) :
    r.typeWords = typeWords (stripDestination ((intents text).contains .move) text)
      i.catalogue.vocabulary := by
  obtain ⟨threshold, -, rfl⟩ := read_eq_ok_iff.1 h
  rfl

theorem folder_of_read {i : Interpreter} {command : String} {text : List Char} {r : Reading}
    (h : i.read command text = .ok r) :
    r.folder = (namedFolder? (trim command.toList)).map String.ofList := by
  obtain ⟨threshold, -, rfl⟩ := read_eq_ok_iff.1 h
  rfl

/-- The `threshold` is the one part of a reading that may fail. -/
theorem map_threshold_read (i : Interpreter) (command : String) (text : List Char) :
    (i.read command text).map Reading.threshold = sizeThreshold text := by
  unfold Interpreter.read
  cases sizeThreshold text with
  | error fault => rfl
  | ok threshold => rfl

theorem threshold_of_read {i : Interpreter} {command : String} {text : List Char} {r : Reading}
    (h : i.read command text = .ok r) : sizeThreshold text = .ok r.threshold := by
  rw [← map_threshold_read i command text, h]
  rfl

theorem contains_move {text : List Char} (h : CallsFor .move text) :
    (intents text).contains .move = true := by
  rw [List.contains_iff_mem, mem_intents]
  exact h

theorem not_contains_move {text : List Char} (h : ¬ CallsFor .move text) :
    (intents text).contains .move = false := by
  rw [← Bool.not_eq_true, List.contains_iff_mem, mem_intents]
  exact h

/-- The `criteria` of a search are empty when its text has no `NamesCriterion`. -/
theorem criteria_isEmpty_iff {i : Interpreter} {command : String} {text : List Char} {r : Reading}
    (hread : i.read command text = .ok r) (hmove : ¬ CallsFor .move text) :
    (i.criteria text r).isEmpty = true ↔ ¬ i.NamesCriterion text := by
  obtain ⟨threshold, hthreshold, rfl⟩ := read_eq_ok_iff.1 hread
  have hsize : threshold.isSome = (firstReading? sizePhrase? none text).isSome := by
    rw [Bool.eq_iff_iff, isSome_of_sizeThreshold hthreshold, Option.isSome_iff_exists]
  rw [not_contains_move hmove, namesCriterion_iff, ← hsize]
  simp [Criteria.isEmpty, Interpreter.criteria, and_assoc]

/-! ## The table -/

/-- The intent whose branch answers a text, by a table. A search without a criterion gives way to a
sort or to a search for duplicates. -/
def Interpreter.branch? (i : Interpreter) (text : List Char) : Option Intent :=
  if CallsFor .move text then some .move
  else if CallsFor .filter text ∧
      (i.NamesCriterion text ∨ ¬ CallsFor .sort text ∧ ¬ CallsFor .duplicates text) then
    some .filter
  else if CallsFor .sort text then some .sort
  else if CallsFor .duplicates text then some .duplicates
  else none

/-- The table names an intent if the text calls for one. -/
theorem branch?_eq_none_iff (i : Interpreter) (text : List Char) :
    i.branch? text = none ↔ ∀ intent, ¬ CallsFor intent text := by
  unfold Interpreter.branch?
  constructor
  · intro h intent
    split at h
    · cases h
    · rename_i hmove
      split at h
      · cases h
      · rename_i hfilter
        split at h
        · cases h
        · rename_i hsort
          split at h
          · cases h
          · rename_i hduplicates
            cases intent with
            | move => exact hmove
            | filter => exact fun hcalls => hfilter ⟨hcalls, Or.inr ⟨hsort, hduplicates⟩⟩
            | sort => exact hsort
            | duplicates => exact hduplicates
  · intro h
    simp [h]

/-- The table names only intents that the text calls for. -/
theorem callsFor_of_branch? {i : Interpreter} {text : List Char} {intent : Intent}
    (h : i.branch? text = some intent) : CallsFor intent text := by
  unfold Interpreter.branch? at h
  split at h
  · rename_i hmove
    cases h
    exact hmove
  · split at h
    · rename_i hfilter
      cases h
      exact hfilter.1
    · split at h
      · rename_i hsort
        cases h
        exact hsort
      · split at h
        · rename_i hduplicates
          cases h
          exact hduplicates
        · cases h

/-- A search answers a text that `CallsFor` one and for no move, unless it gives way. -/
theorem branch?_eq_filter_iff {i : Interpreter} {text : List Char} :
    i.branch? text = some .filter ↔ ¬ CallsFor .move text ∧ CallsFor .filter text ∧
      (i.NamesCriterion text ∨ ¬ CallsFor .sort text ∧ ¬ CallsFor .duplicates text) := by
  unfold Interpreter.branch?
  by_cases hmove : CallsFor .move text
  · simp [hmove]
  · by_cases hcriterion : CallsFor .filter text ∧
        (i.NamesCriterion text ∨ ¬ CallsFor .sort text ∧ ¬ CallsFor .duplicates text)
    · rw [if_neg hmove, if_pos hcriterion]
      exact ⟨fun _ => ⟨hmove, hcriterion⟩, fun _ => rfl⟩
    · rw [if_neg hmove, if_neg hcriterion]
      constructor
      · intro h
        split at h
        · cases h
        · split at h
          · cases h
          · cases h
      · rintro ⟨-, h⟩
        exact absurd h hcriterion

/-! ## The answer of a branch -/

/-- The answer of `_filter`, without giving way to a later intent. -/
def Interpreter.search (i : Interpreter) (text : List Char) (r : Reading) (files : List Record) :
    Except CommandFault Answer :=
  ((i.criteria text r).apply files).map fun chosen =>
    ⟨chosen, .filter, some s!"Found {chosen.length} file(s) matching your criteria", none⟩

/-- The answer that the branch of an intent gives: `_move`, `_filter`, `_sort` or `_duplicates`. -/
def Interpreter.respond (i : Interpreter) (text : List Char) (r : Reading) (files : List Record) :
    Intent → Except CommandFault Answer
  | .move => .ok (i.move r files)
  | .filter => i.search text r files
  | .sort => i.sort text r files
  | .duplicates => .ok (findDuplicates files)

/-- Empty criteria are applied without a failure. -/
theorem apply_of_isEmpty {c : Criteria} (h : c.isEmpty = true) (files : List Record) :
    ∃ chosen, c.apply files = .ok chosen := by
  simp only [Criteria.isEmpty, Bool.and_eq_true, Option.isNone_iff_eq_none] at h
  exact ⟨_, by simp only [Criteria.apply, Criteria.chooseRecent, h.1.2]; rfl⟩

/-- The branch `_filter` gives way when it names no criterion and another intent comes last. -/
theorem filter_eq (i : Interpreter) (text : List Char) (r : Reading) (files : List Record) :
    i.filter text r files =
      if (i.criteria text r).isEmpty = true ∧ r.intents.getLast? ≠ some .filter then .ok none
      else (i.search text r files).map some := by
  unfold Interpreter.filter Interpreter.search
  split
  · rename_i hdefers
    -- the criteria are applied before the search gives way, so they must not fail
    obtain ⟨chosen, hchosen⟩ := apply_of_isEmpty hdefers.1 files
    simp [hchosen, hdefers, bind, Except.bind, pure, Except.pure]
  · rename_i hanswers
    cases hchosen : (i.criteria text r).apply files with
    | error fault => simp [hchosen, bind, Except.bind, Except.map]
    | ok chosen => simp [hchosen, hanswers, bind, Except.bind, pure, Except.pure, Except.map]

/-- An intent that responds ends the turn of the intents. -/
theorem firstAnswer_cons {i : Interpreter} {text : List Char} {r : Reading} {files : List Record}
    {intent : Intent}
    (h : i.answer text r files intent = (i.respond text r files intent).map some)
    (rest : List Intent) :
    i.firstAnswer text r files (intent :: rest) =
      (i.respond text r files intent).map fun a => some (intent, a) := by
  rw [Interpreter.firstAnswer, h]
  cases i.respond text r files intent with
  | error fault => rfl
  | ok a => rfl

/-- An intent that gives way leaves the turn to the later ones. -/
theorem firstAnswer_cons_none {i : Interpreter} {text : List Char} {r : Reading}
    {files : List Record} {intent : Intent} (h : i.answer text r files intent = .ok none)
    (rest : List Intent) :
    i.firstAnswer text r files (intent :: rest) = i.firstAnswer text r files rest := by
  rw [Interpreter.firstAnswer, h]
  rfl

theorem answer_eq_respond (i : Interpreter) (text : List Char) (r : Reading) (files : List Record)
    {intent : Intent} (h : intent ≠ .filter) :
    i.answer text r files intent = (i.respond text r files intent).map some := by
  cases intent with
  | move => rfl
  | filter => exact absurd rfl h
  | sort => rfl
  | duplicates => rfl

/-- A search answers when it names a criterion or no later intent is there to answer. -/
theorem answer_filter_eq {i : Interpreter} {command : String} {text : List Char} {r : Reading}
    (hread : i.read command text = .ok r) (files : List Record) (hmove : ¬ CallsFor .move text)
    (hcriterion : CallsFor .filter text ∧
      (i.NamesCriterion text ∨ ¬ CallsFor .sort text ∧ ¬ CallsFor .duplicates text)) :
    i.answer text r files .filter = (i.respond text r files .filter).map some := by
  rw [Interpreter.answer, filter_eq, if_neg]
  · rfl
  · rintro ⟨hempty, hlast⟩
    rcases hcriterion.2 with hnames | hlater
    · exact (criteria_isEmpty_iff hread hmove).1 hempty hnames
    · -- the search is the only intent, so it is the last one
      apply hlast
      rw [intents_of_read hread, intents_eq_filter]
      simp [Intent.all, hmove, hcriterion.1, hlater]

/-- The branch of the table has an answer of its own. -/
theorem answer_of_branch? {i : Interpreter} {command : String} {text : List Char} {r : Reading}
    {intent : Intent} (hread : i.read command text = .ok r) (files : List Record)
    (h : i.branch? text = some intent) :
    i.answer text r files intent = (i.respond text r files intent).map some := by
  by_cases hintent : intent = .filter
  · obtain rfl := hintent
    obtain ⟨hmove, hcriterion⟩ := branch?_eq_filter_iff.1 h
    exact answer_filter_eq hread files hmove hcriterion
  · exact answer_eq_respond i text r files hintent

/-- A search gives way when it names no criterion and a later intent is there to answer. -/
theorem answer_filter_eq_none {i : Interpreter} {command : String} {text : List Char} {r : Reading}
    (hread : i.read command text = .ok r) (files : List Record) (hmove : ¬ CallsFor .move text)
    (hfilter : CallsFor .filter text) (hnames : ¬ i.NamesCriterion text)
    (hlater : CallsFor .sort text ∨ CallsFor .duplicates text) :
    i.answer text r files .filter = .ok none := by
  rw [Interpreter.answer, filter_eq, if_pos]
  refine ⟨(criteria_isEmpty_iff hread hmove).2 hnames, ?_⟩
  -- the last intent is the search for duplicates if the text calls for it, else the sort
  rw [intents_of_read hread, intents_eq_filter]
  by_cases hduplicates : CallsFor .duplicates text
  · by_cases hsort : CallsFor .sort text
    · simp [Intent.all, hmove, hfilter, hsort, hduplicates]
    · simp [Intent.all, hmove, hfilter, hsort, hduplicates]
  · have hsort : CallsFor .sort text := hlater.resolve_right hduplicates
    simp [Intent.all, hmove, hfilter, hsort, hduplicates]

/-- The turn of the intents behind a search ends at the sort or at the search for duplicates. -/
theorem firstAnswer_later (i : Interpreter) (text : List Char) (r : Reading)
    (files : List Record) :
    i.firstAnswer text r files
        ([.sort, .duplicates].filter fun intent => decide (CallsFor intent text)) =
      match (if CallsFor .sort text then some Intent.sort
        else if CallsFor .duplicates text then some .duplicates else none) with
      | none => .ok none
      | some intent => (i.respond text r files intent).map fun a => some (intent, a) := by
  by_cases hsort : CallsFor .sort text
  · rw [if_pos hsort, List.filter_cons_of_pos (by simpa using hsort)]
    exact firstAnswer_cons (answer_eq_respond i text r files (by decide)) _
  · rw [if_neg hsort, List.filter_cons_of_neg (by simpa using hsort)]
    by_cases hduplicates : CallsFor .duplicates text
    · rw [if_pos hduplicates, List.filter_cons_of_pos (by simpa using hduplicates)]
      exact firstAnswer_cons (answer_eq_respond i text r files (by decide)) _
    · rw [if_neg hduplicates, List.filter_cons_of_neg (by simpa using hduplicates)]
      rfl

/-- The turn of the intents, `firstAnswer`, ends at the branch that `branch?` names. -/
theorem firstAnswer_intents {i : Interpreter} {command : String} {text : List Char} {r : Reading}
    (hread : i.read command text = .ok r) (files : List Record) :
    i.firstAnswer text r files r.intents =
      match i.branch? text with
      | none => .ok none
      | some intent => (i.respond text r files intent).map fun a => some (intent, a) := by
  have hintents : r.intents = Intent.all.filter fun intent => decide (CallsFor intent text) := by
    rw [intents_of_read hread, intents_eq_filter]
  rw [hintents, Intent.all]
  unfold Interpreter.branch?
  by_cases hmove : CallsFor .move text
  · -- a move comes first and always answers
    rw [if_pos hmove, List.filter_cons_of_pos (by simpa using hmove)]
    exact firstAnswer_cons (answer_eq_respond i text r files (by decide)) _
  · rw [if_neg hmove, List.filter_cons_of_neg (by simpa using hmove)]
    by_cases hcriterion : CallsFor .filter text ∧
        (i.NamesCriterion text ∨ ¬ CallsFor .sort text ∧ ¬ CallsFor .duplicates text)
    · rw [if_pos hcriterion, List.filter_cons_of_pos (by simpa using hcriterion.1)]
      exact firstAnswer_cons (answer_filter_eq hread files hmove hcriterion) _
    · rw [if_neg hcriterion]
      by_cases hfilter : CallsFor .filter text
      · -- the search gives way to one of the two intents behind it
        rw [not_and, not_or, not_and_or, not_not, not_not] at hcriterion
        obtain ⟨hnames, hlater⟩ := hcriterion hfilter
        rw [List.filter_cons_of_pos (by simpa using hfilter),
          firstAnswer_cons_none (answer_filter_eq_none hread files hmove hfilter hnames hlater)]
        exact firstAnswer_later i text r files
      · rw [List.filter_cons_of_neg (by simpa using hfilter)]
        exact firstAnswer_later i text r files

/-! ## The outcome of a command -/

/-- The text that `process` looks for words in: the command without outer blanks in lower case,
empty for no command. -/
def commandText (command : Option String) : List Char := normalized (command.getD "")

/-- A command has no text when it consists of blanks. -/
theorem commandText_eq_nil_iff (command : Option String) :
    commandText command = [] ↔ ∀ c ∈ (command.getD "").toList, isBlank c = true := by
  rw [commandText, normalized, lower_eq_nil_iff, trim_eq_nil_iff]

/-- A command with no blanks at its ends is put into lower case as it is. -/
theorem commandText_eq_lower {command : String} (hfirst : StopsBefore isBlank command.toList)
    (hlast : StopsBefore isBlank command.toList.reverse) :
    commandText (some command) = lower command.toList := by
  rw [commandText, normalized, Option.getD_some, trim_eq_self hfirst hlast]

/-- The answer of `process` to a blank command. -/
def blankAnswer (files : List Record) : Answer := ⟨files, .none, none, none⟩

/-- The answer of `process` to a command that is not understood. -/
def unknownAnswer (files : List Record) : Answer :=
  ⟨files, .unknown, some (Suggestion.help Suggestion.helpExamples), none⟩

/-- A command that is not blank is read once and answered by the branch that `branch?` names. -/
theorem run_eq (i : Interpreter) (command : Option String) (files : List Record) :
    i.run command files =
      if commandText command = [] then .ok ⟨blankAnswer files, []⟩
      else (i.read (command.getD "") (commandText command)).bind fun r =>
        match i.branch? (commandText command) with
        | none => .ok ⟨unknownAnswer files,
            [startRow (commandText command) files, unknownRow (commandText command)]⟩
        | some intent =>
            (i.respond (commandText command) r files intent).map fun a =>
              ⟨a, startRow (commandText command) files ::
                answerRows (commandText command) intent a⟩ := by
  have htext : normalized (command.getD "") = commandText command := rfl
  simp only [Interpreter.run, htext]
  generalize commandText command = text
  by_cases hblank : text = []
  · rw [if_pos hblank, hblank]
    rfl
  · -- the intents of the reading take their turns, and the first answer is that of the branch
    rw [if_neg hblank, if_neg (by rwa [List.isEmpty_iff])]
    cases hread : i.read (command.getD "") text with
    | error fault => rfl
    | ok r =>
        simp only [bind, Except.bind]
        rw [firstAnswer_intents hread files]
        cases i.branch? text with
        | none => rfl
        | some intent =>
            simp only
            cases i.respond text r files intent with
            | error fault => rfl
            | ok a => rfl

/-- A command that is read is answered as the branch of the table responds. -/
theorem process_eq_respond {i : Interpreter} {command : Option String} {r : Reading}
    {intent : Intent} (hread : i.read (command.getD "") (commandText command) = .ok r)
    (hbranch : i.branch? (commandText command) = some intent) (files : List Record) :
    i.process command files = i.respond (commandText command) r files intent := by
  rw [Interpreter.process, run_eq, if_neg (ne_nil_of_callsFor (callsFor_of_branch? hbranch)), hread]
  simp only [hbranch, Except.bind]
  cases i.respond (commandText command) r files intent with
  | error fault => rfl
  | ok a => rfl

/-- What a command over a collection is answered with, by cases: a blank command, one without an
intent, and one that the branch of `branch?` answers. -/
inductive Interpreter.Answers (i : Interpreter) (command : Option String) (files : List Record) :
    Answer → Prop where
  | blank : commandText command = [] → Answers i command files (blankAnswer files)
  | unknown : commandText command ≠ [] → i.branch? (commandText command) = none →
      ¬ SizeTooLarge (commandText command) → Answers i command files (unknownAnswer files)
  | branch (r : Reading) (intent : Intent) (a : Answer) :
      commandText command ≠ [] →
      i.read (command.getD "") (commandText command) = .ok r →
      i.branch? (commandText command) = some intent →
      i.respond (commandText command) r files intent = .ok a →
      Answers i command files a

/-- The answers of `process` are those of the relation `Answers`. -/
theorem process_eq_ok_iff {i : Interpreter} {command : Option String} {files : List Record}
    {a : Answer} : i.process command files = .ok a ↔ i.Answers command files a := by
  unfold Interpreter.process
  rw [run_eq]
  constructor
  · intro h
    by_cases hblank : commandText command = []
    · rw [if_pos hblank] at h
      cases h
      exact .blank hblank
    · rw [if_neg hblank] at h
      cases hread : i.read (command.getD "") (commandText command) with
      | error fault =>
          rw [hread] at h
          cases h
      | ok r =>
          rw [hread] at h
          cases hbranch : i.branch? (commandText command) with
          | none =>
              simp only [hbranch, Except.bind, Except.map, Except.ok.injEq] at h
              rw [← h]
              -- the command was read, so its size is in range
              refine .unknown hblank hbranch fun hlarge => ?_
              have hfails : i.read (command.getD "") (commandText command) =
                  .error .sizeOutOfRange := read_eq_error_iff.2 ⟨rfl, hlarge⟩
              rw [hfails] at hread
              cases hread
          | some intent =>
              simp only [hbranch, Except.bind] at h
              cases hresponse : i.respond (commandText command) r files intent with
              | error fault =>
                  rw [hresponse] at h
                  cases h
              | ok a' =>
                  rw [hresponse] at h
                  cases h
                  exact .branch r intent a' hblank hread hbranch hresponse
  · intro h
    cases h with
    | blank hblank => rw [if_pos hblank]; rfl
    | unknown htext hbranch hsize =>
        obtain ⟨r, hread⟩ := exists_read (i := i) (command.getD "") hsize
        rw [if_neg htext, hread]
        simp only [hbranch, Except.bind, Except.map]
    | branch r intent _ htext hread hbranch hresponse =>
        rw [if_neg htext, hread]
        simp only [hbranch, hresponse, Except.bind, Except.map]

/-- The interpreter fails exactly when reading the command or the branch of `branch?` fails. -/
theorem process_eq_error_iff {i : Interpreter} {command : Option String} {files : List Record}
    {fault : CommandFault} :
    i.process command files = .error fault ↔
      commandText command ≠ [] ∧
        (i.read (command.getD "") (commandText command) = .error fault ∨
          ∃ r intent, i.read (command.getD "") (commandText command) = .ok r ∧
            i.branch? (commandText command) = some intent ∧
            i.respond (commandText command) r files intent = .error fault) := by
  unfold Interpreter.process
  rw [run_eq]
  by_cases hblank : commandText command = []
  · simp [hblank, Except.map]
  · rw [if_neg hblank]
    cases hread : i.read (command.getD "") (commandText command) with
    | error fault' => simp [hblank, Except.bind, Except.map]
    | ok r =>
        cases hbranch : i.branch? (commandText command) with
        | none => simp [Except.bind, Except.map]
        | some intent =>
            cases hresponse : i.respond (commandText command) r files intent with
            | error fault' => simp [hblank, hresponse, Except.bind, Except.map]
            | ok a => simp [hresponse, Except.bind, Except.map]

end FileClerk
