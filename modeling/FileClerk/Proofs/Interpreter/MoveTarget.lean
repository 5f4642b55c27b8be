import FileClerk.Proofs.Command.OuterBlanks
import FileClerk.Proofs.Interpreter.BracketDestination
import FileClerk.Proofs.Moment

/-!
# Where a move goes

The folder of a move is found in one of four places, in this order: the first bracket group of the
command that is not blank, the first folder phrase that names something, the first folder of the
catalogue that shares a type word with the command, and the clock. `MoveTarget` says so by the text
of the command and by the catalogue, without the search; there is one target only, and it does not
depend on the order of the type words (`moveTarget_iff`). A move goes there whatever the files are,
and the clock has a part in the answer only if the other places are empty (`process_moveTarget`).

A folder named for the moment has the stamp of the clock in its name. The stamp has fourteen digits
from the year 1000 on, and fewer before (`stamp_may_be_short`).
-/

set_option autoImplicit false

namespace FileClerk

open FileClerk.Text FileClerk.Command FileClerk.Collection

/-! ## Folders of the catalogue -/

/-- One of `words`, in lower case, is one of `triggers`. -/
def SharesWord (words triggers : List String) : Prop := ∃ w ∈ words, lowered w ∈ triggers

/-- The folder is the first one of `catalogue.folders` with a trigger among the words. -/
def FirstFolder (catalogue : Catalogue) (words : List String) (folder : String) : Prop :=
  ∃ before triggers after, catalogue.folders = before ++ (folder, triggers) :: after ∧
    SharesWord words triggers ∧ ∀ entry ∈ before, ¬ SharesWord words entry.2

theorem any_contains_iff (words triggers : List String) :
    (words.any fun w => triggers.contains (lowered w)) = true ↔ SharesWord words triggers := by
  simp only [SharesWord, List.any_eq_true, List.contains_iff_mem]

/-- The folder that `folderFor?` gives is the `FirstFolder`. -/
theorem folderFor?_eq_some_iff {catalogue : Catalogue} {words : List String} {folder : String} :
    catalogue.folderFor? words = some folder ↔ FirstFolder catalogue words folder := by
  simp only [Catalogue.folderFor?, Option.map_eq_some_iff, List.find?_eq_some_iff_append,
    Bool.not_eq_eq_eq_not, Bool.not_true, ← Bool.not_eq_true, any_contains_iff, FirstFolder]
  constructor
  · rintro ⟨⟨_, triggers⟩, ⟨hshares, before, after, heq, hbefore⟩, rfl⟩
    exact ⟨before, triggers, after, heq, hshares, hbefore⟩
  · rintro ⟨before, triggers, after, heq, hshares, hbefore⟩
    exact ⟨(folder, triggers), ⟨hshares, before, after, heq, hbefore⟩, rfl⟩

/-- The order of the words does not count. -/
theorem folderFor?_congr (catalogue : Catalogue) {words words' : List String}
    (h : ∀ w, w ∈ words ↔ w ∈ words') :
    catalogue.folderFor? words = catalogue.folderFor? words' := by
  have hshares : ∀ triggers, SharesWord words triggers ↔ SharesWord words' triggers := by
    intro triggers
    simp only [SharesWord, h]
  apply Option.ext
  intro folder
  simp only [folderFor?_eq_some_iff, FirstFolder, hshares]

/-! ## The target -/

/-- The command names no folder: its bracket groups are blank, and its phrases give the
`placeholder` only. -/
structure Unnamed (command : List Char) : Prop where
  groups : BlankGroups command
  phrases : ∀ words ∈ readings folderPhrase command, phraseName words = placeholder

/-- Neither the command nor `folder_for` has a folder for the words of a move. -/
structure Undirected (catalogue : Catalogue) (command : List Char) (words : List String) :
    Prop where
  unnamed : Unnamed command
  folders : ∀ folder, FirstFolder catalogue words folder → folder = ""

/-- The folder that a move goes to, by the text of its command, its type words, the catalogue and
the clock, in the order of `extract_folder_name` and `default_folder_name`. -/
inductive MoveTarget (catalogue : Catalogue) (clock : Moment) (command : List Char)
    (words : List String) : String → Prop where
  | group (front body back : List Char) :
      command = front ++ '[' :: (body ++ ']' :: back) → BlankGroups front → BracketFree body →
      (∃ c ∈ body, isBlank c = false) →
      MoveTarget catalogue clock command words (String.ofList (trim body))
  | phrase (skipped : List (List (List Char))) (name : List (List Char))
      (more : List (List (List Char))) :
      BlankGroups command → readings folderPhrase command = skipped ++ name :: more →
      (∀ other ∈ skipped, phraseName other = placeholder) → phraseName name ≠ placeholder →
      MoveTarget catalogue clock command words (String.ofList (capitalized (phraseName name)))
  | standing (folder : String) :
      Unnamed command → FirstFolder catalogue words folder → folder ≠ "" →
      MoveTarget catalogue clock command words folder
  | generated : Undirected catalogue command words →
      MoveTarget catalogue clock command words (generatedStart ++ clock.stamp)

theorem namedFolder?_eq_none_iff {command : List Char} :
    namedFolder? command = none ↔ Unnamed command := by
  rw [namedFolder?, Option.or_eq_none_iff, bracketFolder?_eq_none_iff, phraseFolder?_eq_none_iff]
  exact ⟨fun h => ⟨h.1, h.2⟩, fun h => ⟨h.groups, h.phrases⟩⟩

section Targets

variable {catalogue : Catalogue} {clock : Moment} {command : List Char} {words : List String}

/-- The default folder is `Organized_` and the stamp of the clock where the catalogue has none with
a name. -/
theorem defaultFolder_eq (h : ∀ folder, FirstFolder catalogue words folder → folder = "") :
    defaultFolder catalogue words clock = generatedStart ++ clock.stamp := by
  rw [defaultFolder]
  cases hfolder : catalogue.folderFor? words with
  | none => rfl
  | some folder =>
      obtain rfl := h folder (folderFor?_eq_some_iff.1 hfolder)
      rfl

theorem defaultFolder_of_firstFolder {folder : String} (h : FirstFolder catalogue words folder)
    (hne : folder ≠ "") : defaultFolder catalogue words clock = folder := by
  rw [defaultFolder, folderFor?_eq_some_iff.2 h]
  exact if_neg (by simpa using hne)

/-- There is one `MoveTarget`: the folder that the command names, or else the default one. -/
theorem moveTarget_iff {target : String} :
    MoveTarget catalogue clock command words target ↔
      target = ((namedFolder? command).map String.ofList).getD
        (defaultFolder catalogue words clock) := by
  constructor
  · intro h
    cases h with
    | group front body back hcommand hfront hbody hnamed =>
        rw [hcommand, namedFolder?, bracketFolder?_group hfront hbody hnamed]
        rfl
    | phrase skipped name more hgroups hreadings hskipped hname =>
        rw [namedFolder?, bracketFolder?_of_blankGroups hgroups, Option.none_or,
          phraseFolder?_eq_some_iff.2 ⟨skipped, name, more, hreadings, hskipped, hname, rfl⟩]
        rfl
    | standing folder hunnamed hfirst hne =>
        rw [namedFolder?_eq_none_iff.2 hunnamed, defaultFolder_of_firstFolder hfirst hne]
        rfl
    | generated hundirected =>
        rw [namedFolder?_eq_none_iff.2 hundirected.unnamed, defaultFolder_eq hundirected.folders]
        rfl
  · rintro rfl
    cases hnamed : namedFolder? command with
    | some name =>
        -- brackets come first, so a name from a phrase means that all groups are blank
        rcases Option.or_eq_some_iff.1 hnamed with hgroup | ⟨hnone, hphrase⟩
        · have hgroups : ¬ BlankGroups command := by
            rw [← bracketFolder?_eq_none_iff, hgroup]
            exact Option.some_ne_none name
          obtain ⟨front, body, back, hcommand, hfront, hbody, hc⟩ := exists_first_group hgroups
          rw [hcommand, bracketFolder?_group hfront hbody hc] at hgroup
          cases hgroup
          exact .group front body back hcommand hfront hbody hc
        · obtain ⟨skipped, words', more, hreadings, hskipped, hname, rfl⟩ :=
            phraseFolder?_eq_some_iff.1 hphrase
          exact .phrase skipped words' more (bracketFolder?_eq_none_iff.1 hnone) hreadings hskipped
            hname
    | none =>
        have hunnamed := namedFolder?_eq_none_iff.1 hnamed
        by_cases hfirst : ∃ folder, FirstFolder catalogue words folder ∧ folder ≠ ""
        · obtain ⟨folder, hfirst, hne⟩ := hfirst
          have hdefault : defaultFolder catalogue words clock = folder :=
            defaultFolder_of_firstFolder hfirst hne
          rw [Option.map_none, Option.getD_none, hdefault]
          exact .standing folder hunnamed hfirst hne
        · have hfolders : ∀ folder, FirstFolder catalogue words folder → folder = "" := by
            intro folder hfolder
            by_contra hne
            exact hfirst ⟨folder, hfolder, hne⟩
          rw [Option.map_none, Option.getD_none, defaultFolder_eq hfolders]
          exact .generated ⟨hunnamed, hfolders⟩

end Targets

/-! ## Moves -/

section Moves

variable {i : Interpreter}

/-- A command that is answered with a move is read, and the move takes some of the files. -/
theorem exists_move_of_process {command : Option String} {files : List Record} {a : Answer}
    (h : i.process command files = .ok a) (hmove : a.action = .move) :
    ∃ r, i.readCommand (command.getD "") = .ok r ∧ i.moved r files ≠ [] ∧ a = i.move r files := by
  cases process_eq_ok_iff.1 h with
  | blank => cases hmove
  | unknown => cases hmove
  | branch r intent a htext hread hbranch hresponse =>
      obtain ⟨-, rfl⟩ := respond_eq_ok_iff.1 hresponse
      cases intent with
      | filter => cases hmove
      | sort => cases hmove
      | duplicates => cases hmove
      | move =>
          refine ⟨r, hread, fun hempty => ?_, rfl⟩
          rw [Interpreter.response, move_eq_of_nil hempty] at hmove
          cases hmove

/-- The folder that a move goes to is the one target of its command. -/
theorem moveTarget_folderFor {command : String} {r : Reading}
    (hread : i.readCommand command = .ok r) {words : List String}
    (hwords : ∀ w, w ∈ words ↔ w ∈ r.typeWords) (target : String) :
    MoveTarget i.catalogue i.clock command.toList words target ↔ target = i.folderFor r := by
  have hdefault : defaultFolder i.catalogue words i.clock =
      defaultFolder i.catalogue r.typeWords i.clock := by
    rw [defaultFolder, defaultFolder, folderFor?_congr i.catalogue hwords]
  rw [moveTarget_iff, Interpreter.folderFor, folder_of_read hread, namedFolder?_trim, hdefault]

end Moves

/-! ## Clocks -/

/-- The interpreter with another `clock`. -/
def Interpreter.withClock (i : Interpreter) (clock : Moment) : Interpreter :=
  { i with clock := clock }

/-- Two moves of the same files that go to folders with the stamps of `clock` and `clock'`. -/
structure ApartInStamp (clock clock' : Moment) (a a' : Answer) : Prop where
  files : a.files = a'.files
  action : a.action = .move
  action' : a'.action = .move
  folder : a.folder = some (generatedStart ++ clock.stamp)
  folder' : a'.folder = some (generatedStart ++ clock'.stamp)

section Clocks

variable (i : Interpreter) (clock clock' : Moment)

theorem branch?_withClock (text : List Char) :
    (i.withClock clock).branch? text = i.branch? text := by
  have hnames : (i.withClock clock).NamesCriterion text ↔ i.NamesCriterion text := by
    rw [namesCriterion_iff, namesCriterion_iff]
    rfl
  simp only [Interpreter.branch?, hnames]

/-- The clock has no part in the answers of the other intents. -/
theorem respond_withClock (text : List Char) (r : Reading) (files : List Record) {intent : Intent}
    (h : intent ≠ .move) :
    (i.withClock clock).respond text r files intent = i.respond text r files intent := by
  cases intent with
  | move => exact absurd rfl h
  | filter => rfl
  | sort => rfl
  | duplicates => rfl

/-- A command that is no move is answered alike at any time. -/
theorem process_withClock_of_branch? {command : Option String} (files : List Record)
    (h : i.branch? (commandText command) ≠ some .move) :
    (i.withClock clock).process command files = i.process command files := by
  have hread : (i.withClock clock).read = i.read := rfl
  rw [Interpreter.process, Interpreter.process, run_eq, run_eq, hread, branch?_withClock]
  cases hbranch : i.branch? (commandText command) with
  | none => rfl
  | some intent =>
      have hintent : intent ≠ .move := by
        rintro rfl
        exact h hbranch
      simp only [respond_withClock i clock _ _ files hintent]

/-- The folder of a move depends on the clock only if it is named for the moment. -/
theorem folderFor_withClock {command : String} {r : Reading}
    (hread : i.readCommand command = .ok r) :
    (i.withClock clock).folderFor r = (i.withClock clock').folderFor r ∨
      Undirected i.catalogue command.toList r.typeWords ∧
        ∀ clock, (i.withClock clock).folderFor r = generatedStart ++ clock.stamp := by
  have htarget : ∀ clock target,
      MoveTarget i.catalogue clock command.toList r.typeWords target ↔
        target = (i.withClock clock).folderFor r := fun clock target =>
    moveTarget_folderFor (i := i.withClock clock) hread (fun _ => Iff.rfl) target
  generalize hfolder : (i.withClock clock).folderFor r = folder
  -- the clock occurs in the last of the four places only
  cases (htarget clock folder).2 hfolder.symm with
  | group front body back hcommand hfront hbody hnamed =>
      exact Or.inl ((htarget clock' _).1 (.group front body back hcommand hfront hbody hnamed))
  | phrase skipped name more hgroups hreadings hskipped hname =>
      exact Or.inl ((htarget clock' _).1
        (.phrase skipped name more hgroups hreadings hskipped hname))
  | standing _ hunnamed hfirst hne =>
      exact Or.inl ((htarget clock' _).1 (.standing folder hunnamed hfirst hne))
  | generated hundirected =>
      exact Or.inr ⟨hundirected, fun clock => ((htarget clock _).1 (.generated hundirected)).symm⟩

/-- At two times a command is answered alike, or the answers are `ApartInStamp`. -/
theorem process_withClock (command : Option String) (files : List Record) :
    (i.withClock clock).process command files = (i.withClock clock').process command files ∨
      ∃ r a a', i.readCommand (command.getD "") = .ok r ∧
        Undirected i.catalogue (command.getD "").toList r.typeWords ∧
        (i.withClock clock).process command files = .ok a ∧
        (i.withClock clock').process command files = .ok a' ∧ ApartInStamp clock clock' a a' := by
  by_cases hbranch : i.branch? (commandText command) = some .move
  · cases hread : i.readCommand (command.getD "") with
    | error fault =>
        have hfails : ∀ clock, (i.withClock clock).process command files = .error fault :=
          fun clock => process_eq_error_iff.2
            ⟨ne_nil_of_callsFor (callsFor_of_branch? hbranch), Or.inl hread⟩
        rw [hfails, hfails]
        exact Or.inl rfl
    | ok r =>
        have hmove : ∀ clock, (i.withClock clock).process command files =
            .ok ((i.withClock clock).move r files) := fun clock =>
          process_eq_respond (i := i.withClock clock) hread
            ((branch?_withClock i clock _).trans hbranch) files
        rw [hmove, hmove]
        -- the files that are moved do not depend on the clock
        by_cases hmoved : i.moved r files = []
        · rw [move_eq_of_nil (i := i.withClock clock) hmoved,
            move_eq_of_nil (i := i.withClock clock') hmoved]
          exact Or.inl rfl
        · rw [move_eq_of_ne_nil (i := i.withClock clock) hmoved,
            move_eq_of_ne_nil (i := i.withClock clock') hmoved]
          rcases folderFor_withClock i clock clock' hread with hsame | ⟨hundirected, hstamp⟩
          · rw [hsame]
            exact Or.inl rfl
          · exact Or.inr ⟨r, _, _, rfl, hundirected, rfl, rfl,
              ⟨rfl, rfl, rfl, congrArg some (hstamp clock), congrArg some (hstamp clock')⟩⟩
  · rw [process_withClock_of_branch? i clock files hbranch,
      process_withClock_of_branch? i clock' files hbranch]
    exact Or.inl rfl

end Clocks

/-! ## The theorem -/

/-- A move goes to the one `MoveTarget` of its command, whatever the files are and in whatever order
the type words come. At two times it goes to the same folder, or to folders that are named for the
two moments, and nothing else in the answer is another. The stamp has fourteen digits in the years
of four digits. -/
theorem process_moveTarget (i : Interpreter) (command : Option String) :
    (∃ folder, ∀ files a, i.process command files = .ok a → a.action = .move →
      a.folder = some folder ∧ ∃ r, i.readCommand (command.getD "") = .ok r ∧
        ∀ words, (∀ w, w ∈ words ↔ w ∈ r.typeWords) → ∀ target,
          (MoveTarget i.catalogue i.clock (command.getD "").toList words target ↔
            target = folder)) ∧
    (∀ clock clock' files,
      (i.withClock clock).process command files = (i.withClock clock').process command files ∨
        ∃ r a a', i.readCommand (command.getD "") = .ok r ∧
          Undirected i.catalogue (command.getD "").toList r.typeWords ∧
          (i.withClock clock).process command files = .ok a ∧
          (i.withClock clock').process command files = .ok a' ∧
          ApartInStamp clock clock' a a') ∧
    ∀ clock : Moment, (∀ c ∈ clock.stamp.toList, c.isDigit = true) ∧
      (clock.stamp.length = 14 ↔ 1000 ≤ clock.date.year ∧ clock.date.year ≤ 9999) := by
  refine ⟨?_, fun clock clock' => process_withClock i clock clock' command, fun clock =>
    ⟨fun c hc => Moment.isDigit_of_mem_stamp hc, clock.length_stamp_eq_iff⟩⟩
  cases hread : i.readCommand (command.getD "") with
  | error fault =>
      -- a command that cannot be read is no move
      refine ⟨"", fun files a hanswer hmove => ?_⟩
      obtain ⟨r, hread', -⟩ := exists_move_of_process hanswer hmove
      rw [hread] at hread'
      cases hread'
  | ok r =>
      refine ⟨i.folderFor r, fun files a hanswer hmove => ?_⟩
      obtain ⟨r', hread', hmoved, rfl⟩ := exists_move_of_process hanswer hmove
      rw [hread] at hread'
      cases hread'
      rw [move_eq_of_ne_nil hmoved]
      exact ⟨rfl, r, rfl, fun words hwords => moveTarget_folderFor hread hwords⟩

/-- In the year 999 the stamp behind `Organized_` has thirteen digits. -/
theorem stamp_may_be_short :
    ¬ ∀ (i : Interpreter) (command : Option String) (files : List Record) (a : Answer)
        (r : Reading), i.process command files = .ok a → a.action = .move →
      i.readCommand (command.getD "") = .ok r →
      Undirected i.catalogue (command.getD "").toList r.typeWords →
      ∃ stamp, a.folder = some (generatedStart ++ stamp) ∧ stamp.length = 14 := by
  intro hall
  have hundirected : Undirected Catalogue.standard "move files".toList [] := by
    refine ⟨namedFolder?_eq_none_iff.1 (by decide +kernel), fun folder hfolder => ?_⟩
    rw [← folderFor?_eq_some_iff] at hfolder
    cases hfolder
  obtain ⟨stamp, hfolder, hlength⟩ := hall
    (Interpreter.ofSettings {} (Moment.ofClock ⟨999, 12, 31⟩ 0 0 0 0 none) none)
    (some "move files") [⟨"1", "plan.pdf", "pdf", 2048, ⟨0, none⟩, "plan.pdf"⟩]
    ⟨[⟨"1", "plan.pdf", "pdf", 2048, ⟨0, none⟩, "plan.pdf"⟩], .move,
      some "Moving 1 file(s) to folder 'Organized_9991231000000'", some "Organized_9991231000000"⟩
    ⟨[], none, none, [.move]⟩ (by decide +kernel) rfl (by decide +kernel) hundirected
  have hfull := congrArg String.length (Option.some.inj hfolder)
  rw [String.length_append, hlength] at hfull
  exact absurd hfull (by decide)

end FileClerk
