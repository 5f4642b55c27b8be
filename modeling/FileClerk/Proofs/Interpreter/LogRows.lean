import FileClerk.Collection.Basic
import FileClerk.Proofs.Interpreter.Dispatch
import FileClerk.Proofs.Interpreter.Failure

/-!
# What the log says about an answer

The intents of a command have their turn one after another, and one that gives way leaves the turn
to the next. The turn ends at the first intent that answers (`firstAnswer_eq_some_iff`), and this is
the intent that the log names. `LogAgrees` says what the log of a command has to tell about its
answer: nothing about a blank command, and one summary about any other one, with the intent that the
answer was built for, its message, its action and the number of its files. Every answer of the
interpreter comes with such a log (`process_logged`).
-/

set_option autoImplicit false

namespace FileClerk

open FileClerk.Text FileClerk.Command FileClerk.Collection

/-! ## The turn of the intents -/

section Turn

variable {i : Interpreter} {text : List Char} {r : Reading} {files : List Record}

/-- The intent is in the turn behind others whose `answer` is `none`. -/
def ComesAfter (i : Interpreter) (text : List Char) (r : Reading) (files : List Record)
    (intent : Intent) (turn : List Intent) : Prop :=
  ∃ before after, turn = before ++ intent :: after ∧
    ∀ earlier ∈ before, i.answer text r files earlier = .ok none

theorem comesAfter_cons_iff {first intent : Intent} {rest : List Intent} :
    ComesAfter i text r files intent (first :: rest) ↔
      intent = first ∨
        i.answer text r files first = .ok none ∧ ComesAfter i text r files intent rest := by
  constructor
  · rintro ⟨before, after, hturn, hbefore⟩
    rcases List.cons_eq_append_iff.1 hturn with ⟨rfl, hcons⟩ | ⟨before, rfl, rfl⟩
    · exact Or.inl (List.cons.inj hcons).1
    · obtain ⟨hfirst, hrest⟩ := List.forall_mem_cons.1 hbefore
      exact Or.inr ⟨hfirst, before, after, rfl, hrest⟩
  · rintro (rfl | ⟨hfirst, before, after, rfl, hbefore⟩)
    · exact ⟨[], rest, rfl, by simp⟩
    · exact ⟨first :: before, after, rfl, List.forall_mem_cons.2 ⟨hfirst, hbefore⟩⟩

/-- The turn ends at an intent that answers when it `ComesAfter` intents that all give way. -/
theorem firstAnswer_eq_some_iff {turn : List Intent} {intent : Intent} {a : Answer} :
    i.firstAnswer text r files turn = .ok (some (intent, a)) ↔
      ComesAfter i text r files intent turn ∧ i.answer text r files intent = .ok (some a) := by
  induction turn with
  | nil => simp [Interpreter.firstAnswer, ComesAfter]
  | cons first rest ih =>
      -- the intent is the first one, or it is in the rest and the first one gives way
      rw [comesAfter_cons_iff, or_and_right, and_assoc, ← ih]
      cases hfirst : i.answer text r files first with
      | error fault =>
          simp only [Interpreter.firstAnswer, hfirst, bind, Except.bind, reduceCtorEq, false_and,
            or_false, false_iff]
          rintro ⟨rfl, hanswer⟩
          rw [hfirst] at hanswer
          cases hanswer
      | ok found =>
          cases found with
          | none =>
              rw [firstAnswer_cons_none hfirst]
              refine ⟨fun h => Or.inr ⟨rfl, h⟩, ?_⟩
              rintro (⟨rfl, hanswer⟩ | ⟨-, h⟩)
              · rw [hfirst] at hanswer
                cases hanswer
              · exact h
          | some b =>
              have hends : i.firstAnswer text r files (first :: rest) = .ok (some (first, b)) := by
                simp only [Interpreter.firstAnswer, hfirst, bind, Except.bind, pure, Except.pure]
              rw [hends]
              constructor
              · intro h
                cases h
                exact Or.inl ⟨rfl, hfirst⟩
              · rintro (⟨rfl, hanswer⟩ | ⟨hnone, -⟩)
                · rw [hfirst] at hanswer
                  cases hanswer
                  rfl
                · cases hnone

end Turn

/-- An intent builds the answer to a command: it is among the `intents` of the text, those before it
give way, and the answer is its own. -/
structure BuiltBy (i : Interpreter) (command : Option String) (files : List Record)
    (intent : Intent) (a : Answer) : Prop where
  mem_intents : intent ∈ intents (commandText command)
  answers : ∃ r, i.read (command.getD "") (commandText command) = .ok r ∧
    ComesAfter i (commandText command) r files intent (intents (commandText command)) ∧
    i.answer (commandText command) r files intent = .ok (some a)

/-- The answer of the branch of the table is built by its intent. -/
theorem builtBy_of_respond {i : Interpreter} {command : Option String} {files : List Record}
    {r : Reading} {intent : Intent} {a : Answer}
    (hread : i.read (command.getD "") (commandText command) = .ok r)
    (hbranch : i.branch? (commandText command) = some intent)
    (hresponse : i.respond (commandText command) r files intent = .ok a) :
    BuiltBy i command files intent a := by
  have hturn := firstAnswer_intents hread files
  simp only [hbranch, hresponse, Except.map, intents_of_read hread] at hturn
  exact ⟨mem_intents.2 (callsFor_of_branch? hbranch), r, hread,
    firstAnswer_eq_some_iff.1 hturn⟩

/-- Every branch has a `message`. -/
theorem message_respond {i : Interpreter} {text : List Char} {r : Reading} {files : List Record}
    {intent : Intent} {a : Answer} (h : i.respond text r files intent = .ok a) :
    ∃ message, a.message = some message := by
  rw [(respond_eq_ok_iff.1 h).2]
  cases intent with
  | move =>
      by_cases hmoved : i.moved r files = []
      · exact ⟨_, by rw [Interpreter.response, move_eq_of_nil hmoved]⟩
      · exact ⟨_, by rw [Interpreter.response, move_eq_of_ne_nil hmoved]⟩
  | filter => exact ⟨_, rfl⟩
  | sort => exact ⟨_, rfl⟩
  | duplicates => exact ⟨_, rfl⟩

/-! ## Summaries -/

/-- The rows of a log with the level `info`. -/
def summaries (log : List Log.Row) : List Log.Row :=
  log.filter fun row => decide (row.level = .info)

/-- What the row has to tell about the answer `a`. -/
structure Summarizes (i : Interpreter) (command : Option String) (files : List Record)
    (a : Answer) (row : Log.Row) : Prop where
  /-- The intent is left open exactly if the command is not understood. -/
  unknown_iff : row.fields.lookup "intent" = some (.text "unknown") ↔ a.action = .unknown
  understood : a.action ≠ .unknown → ∃ intent, BuiltBy i command files intent a ∧
    row.fields.lookup "intent" = some (.text intent.name) ∧
    a.message = some row.message ∧
    row.fields.lookup "action" = some (.text a.action.name) ∧
    row.fields.lookup "file_count" = some (.int a.files.length)

/-- What the `log` of a command has to tell about its answer: nothing about a blank command, and one
row that `Summarizes` any other one. -/
structure LogAgrees (i : Interpreter) (command : Option String) (files : List Record)
    (a : Answer) (log : List Log.Row) : Prop where
  blank : commandText command = [] → log = []
  summary : commandText command ≠ [] →
    ∃ row, summaries log = [row] ∧ Summarizes i command files a row

theorem intentName_ne_unknown (intent : Intent) : intent.name ≠ "unknown" := by
  cases intent with
  | move => decide
  | filter => decide
  | sort => decide
  | duplicates => decide

/-- The rows about the answer of an intent hold one summary; a sort writes a row of its own. -/
theorem summaries_answerRows (text : List Char) (files : List Record) (intent : Intent)
    (a : Answer) :
    summaries (startRow text files :: answerRows text intent a) = [answerRow intent a] := by
  cases intent with
  | move => rfl
  | filter => rfl
  | sort => rfl
  | duplicates => rfl

/-- The rows about a command that is not understood hold one summary. -/
theorem summaries_unknownRow (text : List Char) (files : List Record) :
    summaries [startRow text files, unknownRow text] = [unknownRow text] := rfl

/-- The row about an answer summarizes the answer that its intent builds. -/
theorem summarizes_answerRow {i : Interpreter} {command : Option String} {files : List Record}
    {r : Reading} {intent : Intent} {a : Answer}
    (hread : i.read (command.getD "") (commandText command) = .ok r)
    (hbranch : i.branch? (commandText command) = some intent)
    (hresponse : i.respond (commandText command) r files intent = .ok a) :
    Summarizes i command files a (answerRow intent a) := by
  have haction : a.action ≠ .unknown := by
    rw [(respond_eq_ok_iff.1 hresponse).2]
    exact action_response i (commandText command) r files intent
  obtain ⟨message, hmessage⟩ := message_respond hresponse
  refine ⟨iff_of_false ?_ haction, fun _ => ⟨intent, ?_, rfl, ?_, rfl, rfl⟩⟩
  · intro hunknown
    exact intentName_ne_unknown intent (Value.text.inj (Option.some.inj hunknown))
  · exact builtBy_of_respond hread hbranch hresponse
  · rw [answerRow, hmessage]
    rfl

/-- Whatever `process` answers, the log of `run` agrees with the answer. -/
theorem process_logged {i : Interpreter} {command : Option String} {files : List Record}
    {a : Answer} (h : i.process command files = .ok a) :
    ∃ log, i.run command files = .ok ⟨a, log⟩ ∧ LogAgrees i command files a log := by
  obtain hblank | ⟨htext, hbranch, hsize⟩ | ⟨r, intent, _, htext, hread, hbranch, hresponse⟩ :=
    process_eq_ok_iff.1 h
  · -- a blank command
    refine ⟨[], ?_, ⟨fun _ => rfl, fun htext => absurd hblank htext⟩⟩
    rw [run_eq, if_pos hblank]
  · -- a command that is not understood
    obtain ⟨r, hread⟩ := exists_read (i := i) (command.getD "") hsize
    refine ⟨_, ?_, ⟨fun hblank => absurd hblank htext, fun _ =>
      ⟨_, summaries_unknownRow (commandText command) files, ?_⟩⟩⟩
    · simp only [run_eq, if_neg htext, hread, hbranch, Except.bind]
    · exact ⟨iff_of_true rfl rfl, fun hunderstood => absurd rfl hunderstood⟩
  · -- a command that a branch answers
    refine ⟨_, ?_, ⟨fun hblank => absurd hblank htext, fun _ =>
      ⟨_, summaries_answerRows (commandText command) files intent a, ?_⟩⟩⟩
    · simp only [run_eq, if_neg htext, hread, hbranch, hresponse, Except.bind, Except.map]
    · exact summarizes_answerRow hread hbranch hresponse

/-- A search without a criterion gives way to a sort, and the log names the sort. -/
theorem process_logged_sample :
    (intents (commandText (some "List files ordered by size")) = [.filter, .sort] ∧
      (Interpreter.ofSettings {} ⟨0, none⟩ none).branch?
        (commandText (some "List files ordered by size")) = some .sort) ∧
      ∃ a log, (Interpreter.ofSettings {} ⟨0, none⟩ none).process
            (some "List files ordered by size") (sample sampleFolder) = .ok a ∧
        (Interpreter.ofSettings {} ⟨0, none⟩ none).run
            (some "List files ordered by size") (sample sampleFolder) = .ok ⟨a, log⟩ ∧
        LogAgrees (Interpreter.ofSettings {} ⟨0, none⟩ none)
          (some "List files ordered by size") (sample sampleFolder) a log := by
  have hcomparable : MutuallyComparable (sample sampleFolder) := by
    decide
  have hsize : ¬ SizeTooLarge (commandText (some "List files ordered by size")) :=
    not_sizeTooLarge_commandText (ShortNumbers.of_length_lt (by decide))
  obtain ⟨a, hprocess⟩ :=
    exists_process_of_comparable (i := Interpreter.ofSettings {} ⟨0, none⟩ none)
      hcomparable hsize
  obtain ⟨log, hrun, hagrees⟩ := process_logged hprocess
  exact ⟨⟨by decide +kernel, by decide +kernel⟩, a, log, hprocess, hrun, hagrees⟩

end FileClerk
