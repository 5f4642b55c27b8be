import FileClerk.Command.Destination
import FileClerk.Proofs.Text.CharClass

/-!
# Named folders

A command that names a folder names one with characters in it (`namedFolder?_ne_nil`). The contents
of a bracket group are taken only if something is left after trimming, and putting the first letter
of a phrase in upper case loses nothing, since no character has an empty upper-case form.
-/

set_option autoImplicit false

namespace FileClerk.Command

open FileClerk.Text

/-! ## Names are not empty -/

theorem bracketFolder?_ne_nil {command name : List Char}
    (h : bracketFolder? command = some name) : name ≠ [] := by
  have hkept := List.find?_some h
  rintro rfl
  cases hkept

theorem capitalized_ne_nil {name : List Char} (h : name ≠ []) : capitalized name ≠ [] := by
  cases name with
  | nil => exact absurd rfl h
  | cons c rest =>
      intro hempty
      exact upperChar_ne_nil c (List.append_eq_nil_iff.1 hempty).1

theorem phraseFolder?_ne_nil {command name : List Char}
    (h : phraseFolder? command = some name) : name ≠ [] := by
  obtain ⟨phrase, hphrase, rfl⟩ := Option.map_eq_some_iff.1 h
  have hkept := List.find?_some hphrase
  apply capitalized_ne_nil
  rintro rfl
  cases hkept

/-- The reader `namedFolder?` never names an empty folder. -/
theorem namedFolder?_ne_nil {command name : List Char}
    (h : namedFolder? command = some name) : name ≠ [] := by
  rcases Option.or_eq_some_iff.1 h with hbracket | ⟨-, hphrase⟩
  · exact bracketFolder?_ne_nil hbracket
  · exact phraseFolder?_ne_nil hphrase

/-! ## Brackets -/

theorem isBracket_iff (c : Char) : isBracket c = true ↔ c = '[' ∨ c = ']' := by
  rw [isBracket, Bool.or_eq_true, beq_iff_eq, beq_iff_eq]

/-- A bracket is neither a letter nor a blank nor a digit nor a point. -/
theorem classes_of_isBracket {c : Char} (h : isBracket c = true) :
    ¬ IsLetter c ∧ ¬ isBlank c = true ∧ ¬ isDigit c = true ∧ c ≠ '.' := by
  rcases (isBracket_iff c).1 h with rfl | rfl
  · decide
  · decide

theorem isWordChar_of_isBracket {c : Char} (h : isBracket c = true) : isWordChar c = false := by
  rcases (isBracket_iff c).1 h with rfl | rfl
  · decide
  · decide

/-- No character of the text is `[` or `]`. -/
def BracketFree (s : List Char) : Prop := ∀ c ∈ s, isBracket c = false

instance (s : List Char) : Decidable (BracketFree s) := List.decidableBAll _ s

theorem BracketFree.append {s t : List Char} (hs : BracketFree s) (ht : BracketFree t) :
    BracketFree (s ++ t) :=
  fun c hc => (List.mem_append.1 hc).elim (hs c) (ht c)

end FileClerk.Command
