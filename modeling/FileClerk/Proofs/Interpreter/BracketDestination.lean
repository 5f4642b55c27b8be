import FileClerk.Proofs.Command.SizeGrammar
import FileClerk.Proofs.Command.Strip
import FileClerk.Proofs.Interpreter.Commute
import FileClerk.Proofs.Interpreter.Dispatch

/-!
# Renaming a bracketed destination

Two commands that differ in nothing but the name between two brackets are read side by side. What
stands in front of the brackets and what stands behind them is put into lower case by itself
(`commandText_bracketCommand`), so it is read alike in both commands. The name is the folder, as it
is written, and for a move it has no part in the types: the group is taken out before types are
looked for, and what is left has no trace of the name (`bracket_names_folder_only`).

Sizes are looked for in the whole text. The first size phrase is that of the text in front, else
that of the name, else that of the text behind (`sizePhrase_bracketCommand`), so renaming the folder
may change the size limit. `threshold_rename_iff` says when it does not, and then both moves take
the same files (`process_rename`).
-/

set_option autoImplicit false

namespace FileClerk

open FileClerk.Text FileClerk.Command FileClerk.Collection

/-- What `extract` gives for a command by itself. -/
def Interpreter.readCommand (i : Interpreter) (command : String) : Except CommandFault Reading :=
  i.read command (commandText (some command))

/-- The command `<front>[<name>]<back>`. -/
def bracketCommand (front name back : String) : String := front ++ "[" ++ name ++ "]" ++ back

/-- Between brackets, `name` is taken for a folder: it has no brackets and is not blank. -/
structure NamesFolder (name : String) : Prop where
  bracketFree : BracketFree name.toList
  named : ∃ c ∈ name.toList, isBlank c = false

/-! ## The text of the command -/

/-- Blanks at the start of a text stay in front of its lower-case form. -/
theorem exists_blanks_append_lower (s : List Char) :
    ∃ gap, Blanks gap ∧ lower s = gap ++ lower (s.dropWhile isBlank) := by
  have hgap : Blanks (s.takeWhile isBlank) := fun c hc => List.mem_takeWhile_imp hc
  refine ⟨s.takeWhile isBlank, hgap, ?_⟩
  rw [← lower_blanks_append hgap, List.takeWhile_append_dropWhile]

/-- Blanks at the end of a text stay behind its lower-case form. -/
theorem exists_lower_append_blanks (s : List Char) :
    ∃ gap, Blanks gap ∧ lower s = lower (s.reverse.dropWhile isBlank).reverse ++ gap := by
  have hgap : Blanks (s.reverse.takeWhile isBlank).reverse := fun c hc =>
    List.mem_takeWhile_imp (List.mem_reverse.1 hc)
  refine ⟨(s.reverse.takeWhile isBlank).reverse, hgap, ?_⟩
  rw [← lower_append_blanks hgap, ← List.reverse_append, List.takeWhile_append_dropWhile,
    List.reverse_reverse]

section Texts

variable (front name back : String)

/-- Nothing is trimmed but the outer ends. -/
theorem trim_bracketCommand : trim (bracketCommand front name back).toList =
    front.toList.dropWhile isBlank ++
      '[' :: (name.toList ++ ']' :: (back.toList.reverse.dropWhile isBlank).reverse) := by
  have hcommand : (bracketCommand front name back).toList =
      front.toList ++ '[' :: (name.toList ++ ']' :: back.toList) := by
    simp [bracketCommand]
  rw [hcommand, trim_append_cons (by decide) (by decide)]

/-- The three parts of the command are put into lower case each by itself. -/
theorem commandText_bracketCommand : commandText (some (bracketCommand front name back)) =
    lower (front.toList.dropWhile isBlank) ++ '[' :: (lower name.toList ++
      ']' :: lower (back.toList.reverse.dropWhile isBlank).reverse) := by
  rw [commandText, normalized, Option.getD_some, trim_bracketCommand,
    lower_append_cons (by decide +kernel) (by decide),
    lower_append_cons (by decide +kernel) (by decide)]

/-- A word of the command stands in one of its parts. -/
theorem startsWord_bracketCommand {word : List Char} (hword : WordLike word) :
    StartsWord word (commandText (some (bracketCommand front name back))) ↔
      StartsWord word (lower front.toList) ∨ StartsWord word (lower name.toList) ∨
        StartsWord word (lower back.toList) := by
  obtain ⟨lead, hlead, hfront⟩ := exists_blanks_append_lower front.toList
  obtain ⟨trail, htrail, hback⟩ := exists_lower_append_blanks back.toList
  rw [commandText_bracketCommand, startsWord_append_cons hword (by decide),
    startsWord_append_cons hword (by decide), hfront, hback,
    startsWord_blanks_append hword _ hlead, startsWord_append_blanks hword _ htrail]

/-- An intent of the command is called for by one of its parts. -/
theorem callsFor_bracketCommand (intent : Intent) :
    CallsFor intent (commandText (some (bracketCommand front name back))) ↔
      CallsFor intent (lower front.toList) ∨ CallsFor intent (lower name.toList) ∨
        CallsFor intent (lower back.toList) := by
  simp only [CallsFor, OccursAny, ← exists_or, ← and_or_left]
  exact exists_congr fun w => and_congr_right fun hw =>
    startsWord_bracketCommand front name back (wordLike_triggers intent w hw)

end Texts

/-! ## Folder and types -/

section Names

variable {front back name name' : String}

/-- The `folder` of the reading is `name`, trimmed and otherwise as it is written. -/
theorem folder_bracketCommand {i : Interpreter} {r : Reading} (hfront : BlankGroups front.toList)
    (hname : NamesFolder name) (hread : i.readCommand (bracketCommand front name back) = .ok r) :
    r.folder = some (String.ofList (trim name.toList)) := by
  -- the groups in front are left when blanks are cut off from the start
  have hleft : BlankGroups (front.toList.dropWhile isBlank) := by
    rw [← front.toList.takeWhile_append_dropWhile (p := isBlank)] at hfront
    exact hfront.of_append
  rw [folder_of_read hread, trim_bracketCommand, namedFolder?,
    bracketFolder?_group hleft hname.bracketFree hname.named]
  rfl

/-- Without its destination the command has nothing of `name` left. -/
theorem stripDestination_rename (hname : BracketFree name.toList)
    (hname' : BracketFree name'.toList) (includePhrase : Bool) :
    stripDestination includePhrase (commandText (some (bracketCommand front name back))) =
      stripDestination includePhrase (commandText (some (bracketCommand front name' back))) := by
  rw [commandText_bracketCommand, commandText_bracketCommand, stripDestination, stripDestination,
    blankOut_group hname.lower, blankOut_group hname'.lower]

/-- The command is a move if it is one without the name. -/
theorem contains_move_bracketCommand
    (hmove : CallsFor .move (lower front.toList) ∨ CallsFor .move (lower back.toList))
    (name : String) :
    (intents (commandText (some (bracketCommand front name back)))).contains .move = true := by
  apply contains_move
  rw [callsFor_bracketCommand]
  exact hmove.imp_right Or.inr

/-- Both names leave the same types. -/
theorem typeWords_rename {i : Interpreter} {r r' : Reading}
    (hmove : CallsFor .move (lower front.toList) ∨ CallsFor .move (lower back.toList))
    (hname : BracketFree name.toList) (hname' : BracketFree name'.toList)
    (hread : i.readCommand (bracketCommand front name back) = .ok r)
    (hread' : i.readCommand (bracketCommand front name' back) = .ok r') :
    r.typeWords = r'.typeWords := by
  rw [typeWords_of_read hread, typeWords_of_read hread', contains_move_bracketCommand hmove,
    contains_move_bracketCommand hmove, stripDestination_rename hname hname']

/-- A command with short numbers is read. -/
theorem exists_readCommand (i : Interpreter) {command : String}
    (hnumbers : ShortNumbers 900000 command.toList) : ∃ r, i.readCommand command = .ok r :=
  exists_read command (@not_sizeTooLarge_commandText (some command) hnumbers)

/-- The name between the brackets of a move is the `folder`, as it is written, and whatever it is,
`typeWords` are the same. -/
theorem bracket_names_folder_only (i : Interpreter) (hfront : BlankGroups front.toList)
    (hmove : CallsFor .move (lower front.toList) ∨ CallsFor .move (lower back.toList))
    (hname : NamesFolder name) (hname' : NamesFolder name')
    (hnumbers : ShortNumbers 900000 (bracketCommand front name back).toList)
    (hnumbers' : ShortNumbers 900000 (bracketCommand front name' back).toList) :
    ∃ r r', i.readCommand (bracketCommand front name back) = .ok r ∧
      i.readCommand (bracketCommand front name' back) = .ok r' ∧
      r.folder = some (String.ofList (trim name.toList)) ∧
      r'.folder = some (String.ofList (trim name'.toList)) ∧
      r.typeWords = r'.typeWords := by
  obtain ⟨r, hread⟩ := exists_readCommand i hnumbers
  obtain ⟨r', hread'⟩ := exists_readCommand i hnumbers'
  exact ⟨r, r', hread, hread', folder_bracketCommand hfront hname hread,
    folder_bracketCommand hfront hname' hread',
    typeWords_rename hmove hname.bracketFree hname'.bracketFree hread hread'⟩

/-- A blank group and a stray bracket in front do no harm. -/
theorem bracket_names_folder_only_sample :
    ∃ r r', (Interpreter.ofSettings {} ⟨0, none⟩ none).readCommand
          (bracketCommand "move [ ] images] to " " PDF Archive " " now") = .ok r ∧
      (Interpreter.ofSettings {} ⟨0, none⟩ none).readCommand
          (bracketCommand "move [ ] images] to " "Videos" " now") = .ok r' ∧
      r.folder = some (String.ofList (trim " PDF Archive ".toList)) ∧
      r'.folder = some (String.ofList (trim "Videos".toList)) ∧
      r.typeWords = r'.typeWords :=
  bracket_names_folder_only _ (by decide +kernel) (Or.inl (by decide +kernel))
    ⟨by decide, 'P', by decide, by decide⟩ ⟨by decide, 'V', by decide, by decide⟩
    (.of_length_lt (by decide)) (.of_length_lt (by decide))

end Names

/-! ## Sizes -/

/-- The `SizePhrase` that is read first in `lower text`. -/
def sizeIn? (text : String) : Option SizePhrase :=
  firstReading? sizePhrase? none (lower text.toList)

/-- The limit that a phrase sets, or none without a phrase. -/
def sizeLimit : Option SizePhrase → Except CommandFault (Option Threshold)
  | none => .ok none
  | some p => p.threshold.map some

theorem sizeThreshold_eq_sizeLimit (text : List Char) :
    sizeThreshold text = sizeLimit (firstReading? sizePhrase? none text) := by
  rw [sizeThreshold]
  cases firstReading? sizePhrase? none text with
  | none => rfl
  | some p => rfl

section Sizes

variable (front name name' back : String)

/-- The first size phrase of the command is that of `front`, else that of `name`, else that of
`back`. -/
theorem sizePhrase_bracketCommand :
    firstReading? sizePhrase? none (commandText (some (bracketCommand front name back))) =
      (sizeIn? front).or ((sizeIn? name).or (sizeIn? back)) := by
  -- the blanks that are cut off at the outer ends bring in no phrase
  obtain ⟨lead, hlead, hfront⟩ := exists_blanks_append_lower front.toList
  obtain ⟨trail, htrail, hback⟩ := exists_lower_append_blanks back.toList
  rw [commandText_bracketCommand, firstReading?_sizePhrase?_append_bracket (by decide),
    firstReading?_sizePhrase?_append_bracket (by decide), sizeIn?, sizeIn?, sizeIn?, hfront, hback,
    firstReading?_sizePhrase?_blanks_append hlead,
    (EndsPhrases.of_blanks htrail).firstReading?_append]

/-- The size limit of the command. -/
theorem threshold_bracketCommand (i : Interpreter) :
    (i.readCommand (bracketCommand front name back)).map Reading.threshold =
      sizeLimit ((sizeIn? front).or ((sizeIn? name).or (sizeIn? back))) := by
  rw [Interpreter.readCommand, map_threshold_read, sizeThreshold_eq_sizeLimit,
    sizePhrase_bracketCommand]

/-- Renaming the folder leaves the `threshold` as it is exactly if `front` has a size phrase, or the
names set the same limit, where a name without a size phrase leaves it to `back`. -/
theorem threshold_rename_iff (i : Interpreter) :
    (i.readCommand (bracketCommand front name back)).map Reading.threshold =
        (i.readCommand (bracketCommand front name' back)).map Reading.threshold ↔
      (sizeIn? front).isSome = true ∨
        sizeLimit ((sizeIn? name).or (sizeIn? back)) =
          sizeLimit ((sizeIn? name').or (sizeIn? back)) := by
  rw [threshold_bracketCommand, threshold_bracketCommand]
  cases hfront : sizeIn? front with
  | none => simp
  | some p => simp

/-- So `[larger than 5 mb]` limits the sizes of the files that are moved to it. -/
theorem bracket_name_limits_size :
    ¬ ∀ (i : Interpreter) (front name name' back : String), NamesFolder name → NamesFolder name' →
      (CallsFor .move (lower front.toList) ∨ CallsFor .move (lower back.toList)) →
      (i.readCommand (bracketCommand front name back)).map Reading.threshold =
        (i.readCommand (bracketCommand front name' back)).map Reading.threshold := by
  intro hall
  have hsame := hall (Interpreter.ofSettings {} ⟨0, none⟩ none) "move files to " "larger than 5 mb"
    "Archive" "" ⟨by decide, 'l', by decide, by decide⟩ ⟨by decide, 'A', by decide, by decide⟩
    (Or.inl (by decide +kernel))
  have hlarger : sizeIn? "larger than 5 mb" = some ⟨"larger".toList, ['5'], [], .mb⟩ := by
    decide +kernel
  have hnone : sizeIn? "move files to " = none ∧ sizeIn? "Archive" = none ∧ sizeIn? "" = none := by
    decide +kernel
  have hlimit : sizeLimit (some ⟨"larger".toList, ['5'], [], .mb⟩) =
      .ok (some ⟨.greater, 5242880⟩) := by
    decide +kernel
  rw [threshold_bracketCommand, threshold_bracketCommand, hlarger, hnone.1, hnone.2.1, hnone.2.2,
    Option.none_or, Option.some_or, hlimit] at hsame
  cases hsame

end Sizes

/-! ## The files that are moved -/

section Moves

variable {i : Interpreter} {front back name name' : String}

theorem branch?_bracketCommand (i : Interpreter)
    (hmove : CallsFor .move (lower front.toList) ∨ CallsFor .move (lower back.toList))
    (name : String) :
    i.branch? (commandText (some (bracketCommand front name back))) = some .move := by
  have hcalls : CallsFor .move (commandText (some (bracketCommand front name back))) := by
    rw [← mem_intents, ← List.contains_iff_mem]
    exact contains_move_bracketCommand hmove name
  rw [Interpreter.branch?, if_pos hcalls]

/-- The move goes to the folder between the brackets, if there is something to move. -/
theorem process_bracketCommand {r : Reading} (hfront : BlankGroups front.toList)
    (hmove : CallsFor .move (lower front.toList) ∨ CallsFor .move (lower back.toList))
    (hname : NamesFolder name) (hread : i.readCommand (bracketCommand front name back) = .ok r)
    (files : List Record) :
    ∃ a, i.process (some (bracketCommand front name back)) files = .ok a ∧
      if i.moved r files = [] then a.files = files ∧ a.action = .none
      else a.files = i.moved r files ∧ a.action = .move ∧
        a.folder = some (String.ofList (trim name.toList)) := by
  refine ⟨i.move r files, process_eq_response hread (branch?_bracketCommand i hmove name)
    (fun part hpart => by cases hpart), ?_⟩
  by_cases hempty : i.moved r files = []
  · rw [if_pos hempty, move_eq_of_nil hempty]
    exact ⟨rfl, rfl⟩
  · rw [if_neg hempty, move_eq_of_ne_nil hempty]
    refine ⟨rfl, rfl, ?_⟩
    rw [Interpreter.folderFor, folder_bracketCommand hfront hname hread]
    rfl

/-- Renaming the folder of a move moves the same files, each time to the folder of that name, as
long as `sizeLimit` stays the same. -/
theorem process_rename (hfront : BlankGroups front.toList)
    (hmove : CallsFor .move (lower front.toList) ∨ CallsFor .move (lower back.toList))
    (hname : NamesFolder name) (hname' : NamesFolder name')
    (hnumbers : ShortNumbers 900000 (bracketCommand front name back).toList)
    (hlimit : (i.readCommand (bracketCommand front name back)).map Reading.threshold =
      (i.readCommand (bracketCommand front name' back)).map Reading.threshold)
    (files : List Record) :
    ∃ a a', i.process (some (bracketCommand front name back)) files = .ok a ∧
      i.process (some (bracketCommand front name' back)) files = .ok a' ∧
      a.files = a'.files ∧ a.action = a'.action ∧
      (a.action = .move → a.folder = some (String.ofList (trim name.toList)) ∧
        a'.folder = some (String.ofList (trim name'.toList))) := by
  obtain ⟨r, hread⟩ := exists_readCommand i hnumbers
  -- the other command is read as well, since its limit is one
  obtain ⟨r', hread', hthreshold⟩ : ∃ r', i.readCommand (bracketCommand front name' back) = .ok r' ∧
      r.threshold = r'.threshold := by
    rw [hread] at hlimit
    cases hread' : i.readCommand (bracketCommand front name' back) with
    | error fault =>
        rw [hread'] at hlimit
        cases hlimit
    | ok r' =>
        rw [hread'] at hlimit
        exact ⟨r', rfl, Except.ok.inj hlimit⟩
  have hmoved : i.moved r files = i.moved r' files := by
    rw [Interpreter.moved, Interpreter.moved, hthreshold,
      typeWords_rename hmove hname.bracketFree hname'.bracketFree hread hread']
  obtain ⟨a, ha, hanswer⟩ := process_bracketCommand hfront hmove hname hread files
  obtain ⟨a', ha', hanswer'⟩ := process_bracketCommand hfront hmove hname' hread' files
  refine ⟨a, a', ha, ha', ?_⟩
  rw [← hmoved] at hanswer'
  by_cases hempty : i.moved r files = []
  · rw [if_pos hempty] at hanswer hanswer'
    obtain ⟨hfiles, haction⟩ := hanswer
    obtain ⟨hfiles', haction'⟩ := hanswer'
    refine ⟨hfiles.trans hfiles'.symm, haction.trans haction'.symm, fun hmoves => ?_⟩
    rw [haction] at hmoves
    cases hmoves
  · rw [if_neg hempty] at hanswer hanswer'
    obtain ⟨hfiles, haction, hfolder⟩ := hanswer
    obtain ⟨hfiles', haction', hfolder'⟩ := hanswer'
    exact ⟨hfiles.trans hfiles'.symm, haction.trans haction'.symm, fun _ => ⟨hfolder, hfolder'⟩⟩

end Moves

end FileClerk
