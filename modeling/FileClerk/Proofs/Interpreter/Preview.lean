import FileClerk.Proofs.Catalogue
import FileClerk.Proofs.Command.SizeGrammar
import FileClerk.Proofs.Command.Strip
import FileClerk.Proofs.Interpreter.BracketDestination

/-!
# Searching before moving

A search shows what a move with the same criteria would take. The two commands have different texts
and are answered by different branches, and each branch reads the criteria in its own way: a move
takes folder phrases out before it looks for type words, a search knows vague sizes, ages and names
as well. For criteria that name nothing of the kind the two agree (`show_previews_move`).

The name of the folder is read as well, and a size phrase in it limits the move. Sizes are looked
for in the lower-case form of the command, so it is the lower-case form of the name that must not
have a size phrase in it (`preview_needs_lower`).
-/

set_option autoImplicit false

namespace FileClerk

open FileClerk.Text FileClerk.Command FileClerk.Collection

/-! ## The two commands -/

/-- The command `show <criteria>`. -/
def showCommand (criteria : String) : String := "show " ++ criteria

/-- The command `move <criteria> to [<folder>]`. -/
def moveCommand (criteria folder : String) : String :=
  "move " ++ criteria ++ " to [" ++ folder ++ "]"

/-- The criteria say nothing but types and sizes: they have no brackets and `ShortNumbers`, and they
call for no intent, no age, no folder and no name. A word for large or small comes with a size
phrase. -/
structure PlainCriteria (criteria : String) : Prop where
  bracketFree : BracketFree criteria.toList
  numbers : ShortNumbers 900000 criteria.toList
  calls : ∀ intent, ¬ CallsFor intent (lower criteria.toList)
  age : ¬ OccursAny (recentWords ++ oldWords) (lower criteria.toList)
  phrase : firstReading? folderPhrase none (lower criteria.toList) = none
  name : nameTerm? (commandText (some (showCommand criteria))) = none
  vague : OccursAny (largeWords ++ smallWords) (lower criteria.toList) →
    ∃ p, firstReading? sizePhrase? none (lower criteria.toList) = some p

section Texts

variable {criteria folder : String}

/-- The text of the search, with the blanks that were cut off. -/
theorem exists_commandText_show (criteria : String) :
    ∃ gap, Blanks gap ∧ commandText (some (showCommand criteria)) ++ gap =
      ['s', 'h', 'o', 'w'] ++ ' ' :: lower criteria.toList := by
  have hcommand : (showCommand criteria).toList =
      ['s', 'h', 'o', 'w'] ++ ' ' :: criteria.toList := by
    simp [showCommand]
  obtain ⟨gap, hgap, htrim⟩ := exists_trim_append
    (s := ['s', 'h', 'o', 'w'] ++ ' ' :: criteria.toList) (stopsBefore_cons.2 (by decide))
  refine ⟨gap, hgap, ?_⟩
  rw [commandText, normalized, Option.getD_some, hcommand, ← lower_append_blanks hgap, htrim,
    lower_append_space]
  rfl

/-- The move is a `bracketCommand` with its folder at the end. -/
theorem moveCommand_eq (criteria folder : String) :
    moveCommand criteria folder = bracketCommand ("move " ++ criteria ++ " to ") folder "" := by
  apply String.toList_inj.1
  simp [moveCommand, bracketCommand]

/-- The text of the move. -/
theorem commandText_move (criteria folder : String) :
    commandText (some (moveCommand criteria folder)) =
      (['m', 'o', 'v', 'e'] ++ ' ' :: lower criteria.toList) ++ [' ', 't', 'o', ' '] ++
        '[' :: (lower folder.toList ++ [']']) := by
  have hfront : ("move " ++ criteria ++ " to ").toList =
      ['m', 'o', 'v', 'e'] ++ ' ' :: (criteria.toList ++ ' ' :: (['t', 'o'] ++ ' ' :: [])) := by
    simp
  have hstart : StopsBefore isBlank ("move " ++ criteria ++ " to ").toList := by
    rw [hfront]
    exact stopsBefore_cons.2 (by decide)
  rw [moveCommand_eq, commandText_bracketCommand, hstart.dropWhile_eq, hfront, lower_append_space,
    lower_append_space, lower_append_space]
  have hmove : lower ['m', 'o', 'v', 'e'] = ['m', 'o', 'v', 'e'] := by decide
  have hto : lower ['t', 'o'] = ['t', 'o'] := by decide
  have hnil : lower [] = [] := rfl
  simp [hmove, hto, hnil]

/-! ## What the texts say -/

/-- A word of the search stands in its first word or in the criteria. -/
theorem startsWord_show {word : List Char} (hword : WordLike word) (criteria : String) :
    StartsWord word (commandText (some (showCommand criteria))) ↔
      StartsWord word ['s', 'h', 'o', 'w'] ∨ StartsWord word (lower criteria.toList) := by
  obtain ⟨gap, hgap, htext⟩ := exists_commandText_show criteria
  rw [← startsWord_append_blanks hword _ hgap, htext]
  exact startsWord_append_cons hword (by decide) _ _

theorem occursAny_show {words : List String} (hwords : ∀ w ∈ words, WordLike w.toList)
    (criteria : String) :
    OccursAny words (commandText (some (showCommand criteria))) ↔
      OccursAny words ['s', 'h', 'o', 'w'] ∨ OccursAny words (lower criteria.toList) := by
  unfold OccursAny
  rw [← exists_or]
  refine exists_congr fun w => ?_
  rw [← and_or_left]
  exact and_congr_right fun hw => startsWord_show (hwords w hw) criteria

/-- The move without its destination has the words of the criteria behind its first word. -/
theorem startsWord_move {word : List Char} (hword : WordLike word)
    (hto : ¬ StartsWord word ['t', 'o']) (criteria : String) :
    StartsWord word ((['m', 'o', 'v', 'e'] ++ ' ' :: lower criteria.toList) ++ groupLead) ↔
      StartsWord word ['m', 'o', 'v', 'e'] ∨ StartsWord word (lower criteria.toList) := by
  have hlead : (['m', 'o', 'v', 'e'] ++ ' ' :: lower criteria.toList) ++ groupLead =
      (['m', 'o', 'v', 'e'] ++ ' ' :: (lower criteria.toList ++ ' ' :: ['t', 'o'])) ++
        [' ', ' '] := by
    simp [groupLead]
  rw [hlead, startsWord_append_blanks hword _ (by decide),
    startsWord_append_cons hword (by decide), startsWord_append_cons hword (by decide)]
  rw [or_iff_left hto]

/-- The search has the size phrase of the criteria. -/
theorem firstReading?_sizePhrase?_show (criteria : String) :
    firstReading? sizePhrase? none (commandText (some (showCommand criteria))) =
      firstReading? sizePhrase? none (lower criteria.toList) := by
  obtain ⟨gap, hgap, htext⟩ := exists_commandText_show criteria
  rw [← (EndsPhrases.of_blanks hgap).firstReading?_append, htext]
  exact readsWordStarts_sizePhrase?.firstReading?_append_cons (by decide) (by decide) rfl

/-- The move has the size phrase of the criteria, or else that of the name of the folder. -/
theorem firstReading?_sizePhrase?_moveCommand (criteria folder : String) :
    firstReading? sizePhrase? none (commandText (some (moveCommand criteria folder))) =
      (firstReading? sizePhrase? none (lower criteria.toList)).or
        (firstReading? sizePhrase? none (lower folder.toList)) := by
  have hlead : EndsPhrases [' ', 't', 'o', ' '] [] :=
    ⟨stopsBefore_cons.2 (by decide), by simp [foldLetter], by simp⟩
  have hnil : firstReading? sizePhrase? none [] = none := sizePhrase?_nil none
  have hclose := firstReading?_sizePhrase?_append_bracket (c := ']') (by decide)
    (lower folder.toList) []
  have hcriteria : firstReading? sizePhrase? none
      (['m', 'o', 'v', 'e'] ++ ' ' :: lower criteria.toList) =
        firstReading? sizePhrase? none (lower criteria.toList) :=
    readsWordStarts_sizePhrase?.firstReading?_append_cons (by decide) (by decide) rfl
  rw [hnil, Option.or_none] at hclose
  rw [commandText_move, firstReading?_sizePhrase?_append_bracket (by decide), hclose,
    hlead.firstReading?_append, hcriteria]

/-- So it has that of the criteria alone if the name of the folder has none in lower case. -/
theorem firstReading?_sizePhrase?_move
    (hfolder : firstReading? sizePhrase? none (lower folder.toList) = none) :
    firstReading? sizePhrase? none (commandText (some (moveCommand criteria folder))) =
      firstReading? sizePhrase? none (lower criteria.toList) := by
  rw [firstReading?_sizePhrase?_moveCommand, hfolder, Option.or_none]

/-- The type words of the standard catalogue consist of word characters, and none of them starts a
word of the commands themselves. -/
theorem vocabulary_standard : ∀ w ∈ Catalogue.standard.vocabulary, WordLike (lower w.toList) ∧
    ¬ StartsWord (lower w.toList) ['s', 'h', 'o', 'w'] ∧
    ¬ StartsWord (lower w.toList) ['m', 'o', 'v', 'e'] ∧
    ¬ StartsWord (lower w.toList) ['t', 'o'] := by
  decide +kernel

/-- Both commands name the types that the criteria name. -/
theorem mem_typeWords_show_iff (h : PlainCriteria criteria) (hfolder : BracketFree folder.toList)
    (w : String) :
    w ∈ typeWords (stripDestination false (commandText (some (showCommand criteria))))
        Catalogue.standard.vocabulary ↔
      w ∈ typeWords (stripDestination true (commandText (some (moveCommand criteria folder))))
        Catalogue.standard.vocabulary := by
  have hcriteria : BracketFree (lower criteria.toList) := h.bracketFree.lower
  have hshow : BracketFree (commandText (some (showCommand criteria))) := by
    obtain ⟨gap, -, htext⟩ := exists_commandText_show criteria
    have hall : BracketFree (['s', 'h', 'o', 'w', ' '] ++ lower criteria.toList) :=
      .append (by decide) hcriteria
    intro c hc
    apply hall
    exact htext ▸ List.mem_append_left gap hc
  have hmove : BracketFree (['m', 'o', 'v', 'e'] ++ ' ' :: lower criteria.toList) :=
    .append (s := ['m', 'o', 'v', 'e', ' ']) (by decide) hcriteria
  have hphrase : firstReading? folderPhrase none
      (['m', 'o', 'v', 'e'] ++ ' ' :: lower criteria.toList) = none :=
    (readsWordStarts_folderPhrase.firstReading?_append_cons (by decide) (by decide) rfl).trans
      h.phrase
  -- the search keeps its text, and the move loses the group of its destination
  rw [stripDestination_of_bracketFree hshow, commandText_move,
    stripDestination_append_group hmove hfolder.lower hphrase, mem_typeWords, mem_typeWords]
  refine and_congr_right fun hw => ?_
  obtain ⟨hword, hnotShow, hnotMove, hnotTo⟩ := vocabulary_standard w hw
  rw [startsWord_show hword, startsWord_move hword hnotTo, or_iff_right hnotShow,
    or_iff_right hnotMove]

/-- The `branch?` of `showCommand` is `filter`. -/
theorem branch?_show (i : Interpreter) (h : PlainCriteria criteria) :
    i.branch? (commandText (some (showCommand criteria))) = some .filter := by
  have hcalls : ∀ intent, CallsFor intent (commandText (some (showCommand criteria))) ↔
      CallsFor intent ['s', 'h', 'o', 'w'] := by
    intro intent
    exact (occursAny_show (wordLike_triggers intent) criteria).trans
      (or_iff_left (h.calls intent))
  rw [branch?_eq_filter_iff, hcalls, hcalls, hcalls, hcalls]
  exact ⟨by decide, by decide, Or.inr ⟨by decide, by decide⟩⟩

theorem branch?_move (i : Interpreter) (criteria folder : String) :
    i.branch? (commandText (some (moveCommand criteria folder))) = some .move := by
  have hcalls : CallsFor .move (commandText (some (moveCommand criteria folder))) := by
    rw [commandText_move]
    refine ⟨"move", by decide, 0, ?_⟩
    rw [standsAt_zero_iff]
    exact ⟨rfl, by simp⟩
  rw [Interpreter.branch?, if_pos hcalls]

end Texts

/-! ## What the commands list -/

section Readings

variable {i : Interpreter} {criteria folder : String} {r r' : Reading}

/-- The search has no criterion but the types and the size that were read. -/
theorem meets_show (h : PlainCriteria criteria)
    (hread : i.read (showCommand criteria) (commandText (some (showCommand criteria))) = .ok r)
    (record : Record) :
    (i.criteria (commandText (some (showCommand criteria))) r).meets record =
      (hasSize r.threshold record && hasType (i.catalogue.expand r.typeWords) record) := by
  have hthreshold : r.threshold.or
      (i.vagueThreshold (commandText (some (showCommand criteria)))) = r.threshold := by
    cases hvague : i.vagueThreshold (commandText (some (showCommand criteria))) with
    | none => exact Option.or_none
    | some t =>
        -- a vague size comes with a size phrase, which wins
        have hsome := (vagueThreshold_isSome_iff i _).1 (by rw [hvague]; rfl)
        rw [occursAny_show (by decide)] at hsome
        have hphrase := h.vague (hsome.resolve_left (by unfold OccursAny; decide))
        rw [← firstReading?_sizePhrase?_show,
          ← isSome_of_sizeThreshold (threshold_of_read hread)] at hphrase
        obtain ⟨t', ht'⟩ := Option.isSome_iff_exists.1 hphrase
        rw [ht', Option.some_or]
  rw [Criteria.meets, getD_extensions]
  simp only [Interpreter.criteria, hthreshold, h.name, hasName, Option.all_none, Bool.true_and]

/-- The records that `moveCommand` takes are those that `showCommand` lists. -/
theorem moved_eq_filter (hi : i.catalogue = Catalogue.standard) (h : PlainCriteria criteria)
    (hfolder : BracketFree folder.toList)
    (hsize : firstReading? sizePhrase? none (lower folder.toList) = none)
    (hread : i.read (showCommand criteria) (commandText (some (showCommand criteria))) = .ok r)
    (hread' : i.read (moveCommand criteria folder)
      (commandText (some (moveCommand criteria folder))) = .ok r') (files : List Record) :
    i.moved r' files =
      files.filter (i.criteria (commandText (some (showCommand criteria))) r).meets := by
  have hshow := not_contains_move (branch?_eq_filter_iff.1 (branch?_show i h)).1
  have hmove := contains_move (callsFor_of_branch? (branch?_move i criteria folder))
  -- the two commands are read alike: one size, and the same types in some order
  have hthreshold : r'.threshold = r.threshold := by
    have hshown := threshold_of_read hread
    have hmoved := threshold_of_read hread'
    rw [sizeThreshold, firstReading?_sizePhrase?_show] at hshown
    rw [sizeThreshold, firstReading?_sizePhrase?_move hsize, hshown] at hmoved
    exact (Except.ok.inj hmoved).symm
  have hwords : ∀ w, w ∈ r'.typeWords ↔ w ∈ r.typeWords := by
    intro w
    rw [typeWords_of_read hread, typeWords_of_read hread', hshow, hmove, hi]
    exact (mem_typeWords_show_iff h hfolder w).symm
  rw [Interpreter.moved, withTypes_eq_filter, withSize_eq_filter, List.filter_filter]
  refine List.filter_congr fun record _ => ?_
  rw [meets_show h hread, hthreshold,
    hasType_congr (fun x => i.catalogue.mem_expand_congr hwords x) record]

end Readings

/-! ## The preview -/

/-- The files of `showCommand criteria` are those of `moveCommand criteria folder`, and it lists
nothing when the move has nothing to take. -/
theorem show_previews_move {i : Interpreter} {criteria folder : String}
    (hi : i.catalogue = Catalogue.standard) (hcriteria : PlainCriteria criteria)
    (hfolder : BracketFree folder.toList)
    (hsize : firstReading? sizePhrase? none (lower folder.toList) = none) (files : List Record) :
    ∃ shown moved, i.process (some (showCommand criteria)) files = .ok shown ∧
      i.process (some (moveCommand criteria folder)) files = .ok moved ∧
      (moved.action = .move → moved.files = shown.files) ∧
      (moved.action = .none ↔ shown.files = []) := by
  have hlarge : ¬ SizeTooLarge (lower criteria.toList) :=
    not_sizeTooLarge_of_shortNumbers hcriteria.numbers.lower
  obtain ⟨r, hread⟩ : ∃ r, i.read (showCommand criteria)
      (commandText (some (showCommand criteria))) = .ok r := by
    apply exists_read
    rwa [SizeTooLarge, firstReading?_sizePhrase?_show]
  obtain ⟨r', hread'⟩ : ∃ r, i.read (moveCommand criteria folder)
      (commandText (some (moveCommand criteria folder))) = .ok r := by
    apply exists_read
    rwa [SizeTooLarge, firstReading?_sizePhrase?_move hsize]
  have hage : ¬ OccursAny (recentWords ++ oldWords)
      (commandText (some (showCommand criteria))) := by
    rw [occursAny_show (by decide)]
    exact not_or.2 ⟨by unfold OccursAny; decide, hcriteria.age⟩
  obtain ⟨shown, hshown, hfiles⟩ :=
    process_search hread (branch?_show i hcriteria) hage files
  have hmoved : i.moved r' files = shown.files := by
    rw [hfiles]
    exact moved_eq_filter hi hcriteria hfolder hsize hread hread' files
  refine ⟨shown, i.move r' files, hshown, process_eq_response hread'
    (branch?_move i criteria folder) (fun part hpart => by cases hpart), ?_⟩
  -- the move takes something or is left undone
  by_cases hempty : i.moved r' files = []
  · rw [move_eq_of_nil hempty]
    exact ⟨fun haction => absurd haction (by simp), iff_of_true rfl (hmoved ▸ hempty)⟩
  · rw [move_eq_of_ne_nil hempty]
    exact ⟨fun _ => hmoved, iff_of_false (by simp) (hmoved ▸ hempty)⟩

theorem plainCriteria_images : PlainCriteria "images larger than 1 kb" where
  bracketFree := by decide
  numbers := .of_length_lt (by decide)
  calls := by
    intro intent
    cases intent <;> decide +kernel
  age := by
    unfold OccursAny
    decide +kernel
  phrase := by decide +kernel
  name := by decide +kernel
  vague := fun _ => ⟨⟨"larger".toList, ['1'], [], .kb⟩, by decide +kernel⟩

/-- The larger images of the sample, shown and moved. -/
theorem show_previews_move_sample :
    ∃ shown moved,
      (Interpreter.ofSettings {} ⟨0, none⟩ none).process
        (some (showCommand "images larger than 1 kb")) (sample sampleFolder) = .ok shown ∧
      (Interpreter.ofSettings {} ⟨0, none⟩ none).process
        (some (moveCommand "images larger than 1 kb" "Pictures")) (sample sampleFolder) =
          .ok moved ∧
      (moved.action = .move → moved.files = shown.files) ∧
      (moved.action = .none ↔ shown.files = []) :=
  show_previews_move rfl plainCriteria_images (by decide) (by decide +kernel)
    (sample sampleFolder)

/-- A folder without a size phrase as it is written is not enough: in `İlarger than 5 mb` the
capital letter turns into two characters, the second one is no word character, and a phrase stands
behind it. -/
theorem preview_needs_lower :
    ¬ ∀ (i : Interpreter) (criteria folder : String) (files : List Record) (shown moved : Answer),
      i.catalogue = Catalogue.standard → PlainCriteria criteria →
      firstReading? folderPhrase none criteria.toList = none → BracketFree folder.toList →
      (∃ c ∈ folder.toList, isBlank c = false) →
      firstReading? sizePhrase? none folder.toList = none →
      i.process (some (showCommand criteria)) files = .ok shown →
      i.process (some (moveCommand criteria folder)) files = .ok moved →
      moved.action = .move → moved.files = shown.files := by
  intro hall
  have hcriteria : PlainCriteria "pdf" := {
    bracketFree := by decide
    numbers := .of_length_lt (by decide)
    calls := by
      intro intent
      cases intent <;> decide +kernel
    age := by
      unfold OccursAny
      decide +kernel
    phrase := by decide +kernel
    name := by decide +kernel
    vague := fun hvague => absurd hvague (by
      unfold OccursAny
      decide +kernel) }
  have hsame := hall (Interpreter.ofSettings {} ⟨0, none⟩ none) "pdf" "İlarger than 5 mb"
    [⟨"1", "plan.pdf", "pdf", 2048, ⟨0, none⟩, "plan.pdf"⟩,
      ⟨"2", "big.pdf", "pdf", 9000000, ⟨0, none⟩, "big.pdf"⟩]
    ⟨[⟨"1", "plan.pdf", "pdf", 2048, ⟨0, none⟩, "plan.pdf"⟩,
      ⟨"2", "big.pdf", "pdf", 9000000, ⟨0, none⟩, "big.pdf"⟩], .filter,
      some "Found 2 file(s) matching your criteria", none⟩
    ⟨[⟨"2", "big.pdf", "pdf", 9000000, ⟨0, none⟩, "big.pdf"⟩], .move,
      some "Moving 1 file(s) to folder 'İlarger than 5 mb'", some "İlarger than 5 mb"⟩
    rfl hcriteria (by decide +kernel) (by decide) ⟨'l', by decide, by decide⟩ (by decide +kernel)
    (by decide +kernel) (by decide +kernel) rfl
  exact absurd hsame (by decide)

end FileClerk
