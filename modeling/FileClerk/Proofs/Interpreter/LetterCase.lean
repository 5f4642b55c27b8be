import FileClerk.Collection.Basic
import FileClerk.Proofs.Command.LetterCase
import FileClerk.Proofs.Interpreter.Dispatch
import FileClerk.Proofs.Interpreter.Failure

/-!
# Letter case in commands

Two commands that differ in the case of ASCII letters, and only outside of bracket groups, have one
answer (`process_caseVariant`). The words of a command are looked for in its lower-case form, which
the two have in common, and the folder that it names is read from the command itself, with letter
case ignored outside of bracket groups. Nothing else of a command is used.
-/

set_option autoImplicit false

namespace FileClerk

open FileClerk.Text FileClerk.Command FileClerk.Collection

/-- The outcome of `run` depends on `commandText` and on `namedFolder?`. -/
theorem run_congr (i : Interpreter) {command command' : Option String}
    (htext : commandText command = commandText command')
    (hfolder : namedFolder? (trim (command.getD "").toList) =
      namedFolder? (trim (command'.getD "").toList)) (files : List Record) :
    i.run command files = i.run command' files := by
  have hread : i.read (command.getD "") (commandText command') =
      i.read (command'.getD "") (commandText command') := by
    simp only [Interpreter.read, hfolder]
  rw [run_eq, run_eq, htext, hread]

/-- For a `CaseVariant` of a command `process` gives the same answer, with the same files, action,
message and folder, and there is one unless a size is beyond range. -/
theorem process_caseVariant {command command' : String}
    (h : CaseVariant command.toList command'.toList) (i : Interpreter) {files : List Record}
    (hfiles : MutuallyComparable files) :
    i.process (some command) files = i.process (some command') files ∧
      (¬ SizeTooLarge (commandText (some command)) →
        ∃ a, i.process (some command) files = .ok a) := by
  -- the blanks at the ends are cut off before a folder is looked for
  have htext : commandText (some command) = commandText (some command') := h.trim.lower_eq
  have hfolder := h.trim.namedFolder?_eq
  refine ⟨?_, exists_process_of_comparable hfiles⟩
  rw [Interpreter.process, Interpreter.process, run_congr i htext hfolder]

/-- Two ways to write a move to a folder whose name keeps its letters. -/
theorem process_caseVariant_sample :
    CaseVariant "MOVE all pdf files over 1 kb into [My Docs]".toList
        "Move all PDF Files over 1 KB Into [My Docs]".toList ∧
      MutuallyComparable (sample sampleFolder) ∧
      ∃ a, (Interpreter.ofSettings {} ⟨0, none⟩ none).process
            (some "MOVE all pdf files over 1 kb into [My Docs]") (sample sampleFolder) = .ok a ∧
        (Interpreter.ofSettings {} ⟨0, none⟩ none).process
            (some "Move all PDF Files over 1 KB Into [My Docs]") (sample sampleFolder) = .ok a := by
  have hvariant : CaseVariant "MOVE all pdf files over 1 kb into [My Docs]".toList
      "Move all PDF Files over 1 KB Into [My Docs]".toList := by
    have hfree : BracketFree "MOVE all pdf files over 1 kb into ".toList := by decide
    have hlower : "MOVE all pdf files over 1 kb into ".toList.map Char.toLower =
        "Move all PDF Files over 1 KB Into ".toList.map Char.toLower := by
      decide +kernel
    exact .of_front hfree hlower "[My Docs]".toList
  have hfiles : MutuallyComparable (sample sampleFolder) := by
    decide
  obtain ⟨hsame, hok⟩ :=
    process_caseVariant hvariant (Interpreter.ofSettings {} ⟨0, none⟩ none) hfiles
  have hsize : ¬ SizeTooLarge (commandText (some "MOVE all pdf files over 1 kb into [My Docs]")) :=
    not_sizeTooLarge_commandText (ShortNumbers.of_length_lt (by decide))
  obtain ⟨a, ha⟩ := hok hsize
  exact ⟨hvariant, hfiles, a, ha, hsame ▸ ha⟩

end FileClerk
