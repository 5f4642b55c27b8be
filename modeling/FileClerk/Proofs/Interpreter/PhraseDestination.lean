import FileClerk.Proofs.Command.LowerPhrase
import FileClerk.Proofs.Interpreter.BracketDestination

/-!
# Types beside a destination phrase

A move looks for its types in the command in lower case, without the phrases that are found there.
These are the phrases from which the folder is taken, so no word of a phrase is read as a type
(`typeWords_outside_phrases`). The two texts are read apart, though, and a capital i with a dot is
an i only before it is put into lower case: a phrase with this letter names the folder and may leave
a type behind (`dotted_letter_leaves_type`).
-/

set_option autoImplicit false

namespace FileClerk

open FileClerk.Text FileClerk.Command

section Moves

variable {i : Interpreter} {command : String} {r : Reading}

/-- The `typeWords` of a move without brackets are those of the command in lower case without its
phrases. -/
theorem typeWords_of_bracketFree (hfree : BracketFree command.toList)
    (hmove : CallsFor .move (commandText (some command))) (hread : i.readCommand command = .ok r) :
    r.typeWords = typeWords (blankOut folderPhrase (lower (trim command.toList)))
      i.catalogue.vocabulary := by
  have htext : BracketFree (lower (trim command.toList)) :=
    BracketFree.lower fun c hc => hfree c (trim_subset hc)
  rw [typeWords_of_read hread, contains_move hmove, stripDestination, if_pos rfl]
  exact congrArg (fun text => typeWords (blankOut folderPhrase text) i.catalogue.vocabulary)
    (blankOut_eq_self (firstReading?_bracketGroup htext none))

/-- The `typeWords` of a move without brackets and without `İ` are those of `lowerOutside
folderPhrase`: the lower-case form of what lies outside of the phrases of the command. Without `Σ`,
phrases may as well be taken out first. -/
theorem typeWords_outside_phrases (i : Interpreter) (hfree : BracketFree command.toList)
    (hmove : CallsFor .move (commandText (some command))) (hdot : 'İ' ∉ command.toList)
    (hsize : ¬ SizeTooLarge (commandText (some command))) :
    ∃ r, i.readCommand command = .ok r ∧
      r.typeWords = typeWords (lowerOutside folderPhrase (trim command.toList))
        i.catalogue.vocabulary ∧
      ('Σ' ∉ command.toList → r.typeWords =
        typeWords (lower (blankOut folderPhrase (trim command.toList)))
          i.catalogue.vocabulary) := by
  obtain ⟨r, hread⟩ := exists_read (i := i) command hsize
  have htypes : r.typeWords = typeWords (lowerOutside folderPhrase (trim command.toList))
      i.catalogue.vocabulary := by
    rw [typeWords_of_bracketFree hfree hmove hread,
      lowerOutside_eq_blankOut_lower fun hmem => hdot (trim_subset hmem)]
  refine ⟨r, hread, htypes, fun hsigma => ?_⟩
  rw [htypes, lowerOutside_eq_lower fun hmem => hsigma (trim_subset hmem)]

/-- A type word in the name of the folder is left out. -/
theorem typeWords_outside_phrases_sample :
    ∃ r, (Interpreter.ofSettings {} ⟨0, none⟩ none).readCommand "Move IMAGES to the PDF folder" =
        .ok r ∧
      r.typeWords =
        typeWords (lowerOutside folderPhrase (trim "Move IMAGES to the PDF folder".toList))
          Catalogue.standard.vocabulary ∧
      ('Σ' ∉ "Move IMAGES to the PDF folder".toList → r.typeWords =
        typeWords (lower (blankOut folderPhrase (trim "Move IMAGES to the PDF folder".toList)))
          Catalogue.standard.vocabulary) :=
  typeWords_outside_phrases (Interpreter.ofSettings {} ⟨0, none⟩ none) (by decide)
    (by decide +kernel) (by decide)
    (@not_sizeTooLarge_commandText (some _) (.of_length_lt (by decide)))

/-- In `move files to the pdf dİrectory` the phrase names the folder, but the lower-case text has no
phrase, and `pdf` stays a type word. -/
theorem dotted_letter_leaves_type :
    ¬ ∀ (i : Interpreter) (command : String), BracketFree command.toList →
      CallsFor .move (commandText (some command)) →
      (phraseFolder? (trim command.toList)).isSome = true →
      ∀ r, i.readCommand command = .ok r →
        r.typeWords = typeWords (lowerOutside folderPhrase (trim command.toList))
          i.catalogue.vocabulary := by
  intro hall
  obtain ⟨r, hread⟩ := @exists_readCommand (Interpreter.ofSettings {} ⟨0, none⟩ none)
    "move files to the pdf dİrectory" (.of_length_lt (by decide))
  have hfree : BracketFree "move files to the pdf dİrectory".toList := by decide
  have hmove : CallsFor .move (commandText (some "move files to the pdf dİrectory")) := by
    decide +kernel
  have hsame := hall _ _ hfree hmove (by decide +kernel) r hread
  rw [typeWords_of_bracketFree hfree hmove hread] at hsame
  exact absurd hsame (by decide +kernel)

end Moves

end FileClerk
