import FileClerk.Collection.Basic
import FileClerk.Proofs.Interpreter.Response

/-!
# How commands are dispatched

The intents of a command are tried in turn until one answers. For every command that is not blank,
the turn ends with the answer of the one branch that `Interpreter.branch?` names, and it ends
without an answer only if the text calls for nothing at all. So no command that is understood is
left without an answer, and the row that the log has about an answer is about the answer that was
given (`process_dispatch`).
-/

set_option autoImplicit false

namespace FileClerk

open FileClerk.Text FileClerk.Command FileClerk.Collection

/-- A command with a character that is no blank has a `commandText`. -/
theorem commandText_ne_nil {command : Option String}
    (h : ∃ c ∈ (command.getD "").toList, isBlank c = false) : commandText command ≠ [] := by
  obtain ⟨c, hc, hblank⟩ := h
  intro hempty
  rw [(commandText_eq_nil_iff command).1 hempty c hc] at hblank
  cases hblank

/-- The text of a command with `ShortNumbers` is not `SizeTooLarge`. -/
theorem not_sizeTooLarge_commandText {command : Option String}
    (h : ShortNumbers 900000 (command.getD "").toList) :
    ¬ SizeTooLarge (commandText command) :=
  not_sizeTooLarge_of_shortNumbers (h.mono (trim_infix_self _)).lower

/-- What holds of the outcome `o` of a command that is read as `r` and dispatched. -/
structure Dispatched (i : Interpreter) (command : Option String) (files : List Record)
    (r : Reading) (o : Outcome) : Prop where
  read_eq : i.read (command.getD "") (commandText command) = .ok r
  run_eq : i.run command files = .ok o
  process_eq : i.process command files = .ok o.answer
  /-- The answer is `unknown` when the text calls for nothing. -/
  unknown_iff : o.answer.action = .unknown ↔ ∀ intent, ¬ CallsFor intent (commandText command)
  unknown_eq : o.answer.action = .unknown → o.answer = unknownAnswer files
  /-- The turn of the intents, `firstAnswer`, ends with the answer of the branch that `branch?`
  names, and without one if it names none. -/
  turn_eq : i.firstAnswer (commandText command) r files r.intents =
    .ok ((i.branch? (commandText command)).map fun intent => (intent, o.answer))
  /-- The branch that the table names has an answer. -/
  answer_eq : ∀ intent, i.branch? (commandText command) = some intent →
    i.answer (commandText command) r files intent = .ok (some o.answer)
  /-- The last row of the log is about that answer. -/
  log_eq : ∀ intent, i.branch? (commandText command) = some intent →
    o.log = startRow (commandText command) files ::
      answerRows (commandText command) intent o.answer

/-- A command that is not blank is `Dispatched`: the branch that `branch?` names answers alone, and
without a branch the command is not understood. -/
theorem process_dispatch {i : Interpreter} {command : Option String} {files : List Record}
    (hcommand : ∃ c ∈ (command.getD "").toList, isBlank c = false)
    (hnumbers : ShortNumbers 900000 (command.getD "").toList)
    (hfiles : MutuallyComparable files) : ∃ r o, Dispatched i command files r o := by
  obtain ⟨r, hread⟩ :=
    exists_read (i := i) (command.getD "") (not_sizeTooLarge_commandText hnumbers)
  have hturn := firstAnswer_intents hread files
  have hnone := branch?_eq_none_iff i (commandText command)
  have hrun := run_eq i command files
  rw [if_neg (commandText_ne_nil hcommand), hread] at hrun
  cases hbranch : i.branch? (commandText command) with
  | none =>
      -- no intent has a turn
      simp only [hbranch, Except.bind] at hrun hturn
      refine ⟨r, _, {
        read_eq := hread
        run_eq := hrun
        process_eq := ?_
        unknown_iff := ⟨fun _ => hnone.1 hbranch, fun _ => rfl⟩
        unknown_eq := fun _ => rfl
        turn_eq := ?_
        answer_eq := ?_
        log_eq := ?_ }⟩
      · rw [Interpreter.process, hrun]
        rfl
      · rw [hturn, hbranch]
        rfl
      · rw [hbranch]
        intro intent hintent
        cases hintent
      · rw [hbranch]
        intro intent hintent
        cases hintent
  | some intent =>
      -- comparable moments are all that the branch needs
      have hresponse := respond_eq_response i (commandText command) r hfiles intent
      have haction := action_response i (commandText command) r files intent
      simp only [hbranch, hresponse, Except.bind, Except.map] at hrun hturn
      refine ⟨r, _, {
        read_eq := hread
        run_eq := hrun
        process_eq := ?_
        unknown_iff := ?_
        unknown_eq := fun hunknown => absurd hunknown haction
        turn_eq := ?_
        answer_eq := ?_
        log_eq := ?_ }⟩
      · rw [Interpreter.process, hrun]
        rfl
      · refine ⟨fun hunknown => absurd hunknown haction, fun hnothing => ?_⟩
        rw [hnone.2 hnothing] at hbranch
        cases hbranch
      · rw [hturn, hbranch]
        rfl
      · intro intent' hintent
        rw [answer_of_branch? hread files hintent]
        obtain rfl : intent = intent' := Option.some.inj (hbranch.symm.trans hintent)
        rw [hresponse]
        rfl
      · intro intent' hintent
        obtain rfl : intent = intent' := Option.some.inj (hbranch.symm.trans hintent)
        rfl

/-- A search without a criterion leaves a command to the search for duplicates. -/
theorem process_dispatch_sample :
    (Interpreter.ofSettings {} ⟨0, none⟩ none).branch?
        (commandText (some "Find duplicate files")) = some .duplicates ∧
      ∃ r o, Dispatched (Interpreter.ofSettings {} ⟨0, none⟩ none) (some "Find duplicate files")
        (sample sampleFolder) r o := by
  have hcommand : ∃ c ∈ "Find duplicate files".toList, isBlank c = false :=
    ⟨'F', by decide, by decide⟩
  have hnumbers : ShortNumbers 900000 "Find duplicate files".toList :=
    ShortNumbers.of_length_lt (by decide)
  have hfiles : MutuallyComparable (sample sampleFolder) := by
    decide
  exact ⟨by decide +kernel, process_dispatch hcommand hnumbers hfiles⟩

end FileClerk
