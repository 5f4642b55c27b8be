import FileClerk.Proofs.Command.Spaced

/-!
# Terms of searches

A search gives its term as a plain word, or as a plain word between quotes (`Writes`). Quotes belong
to no word, so the keywords are those of the word, and the readers pass over both
(`Writes.firstReading?_append_cons`, `Writes.firstReading?_eq_none`). The term that is read is the
word (`Writes.quotedTerm?_eq`).
-/

set_option autoImplicit false

namespace FileClerk.Command

open FileClerk.Text

universe u

/-! ## Plain words -/

/-- The class `[a-z0-9_]`: a small Latin letter, a digit or the underscore. -/
def isPlainChar (c : Char) : Bool := ('a' ≤ c && c ≤ 'z') || ('0' ≤ c && c ≤ '9') || c == '_'

theorem ascii_of_isPlainChar {c : Char} (h : isPlainChar c = true) : c.toNat < 128 := by
  simp only [isPlainChar, Bool.or_eq_true, Bool.and_eq_true, decide_eq_true_eq,
    beq_iff_eq] at h
  rcases h with (⟨-, hle⟩ | ⟨-, hle⟩) | rfl
  · exact Nat.lt_of_le_of_lt (show c.toNat ≤ 'z'.toNat from hle) (by decide)
  · exact Nat.lt_of_le_of_lt (show c.toNat ≤ '9'.toNat from hle) (by decide)
  · decide

theorem classes_of_isPlainChar {c : Char} (h : isPlainChar c = true) :
    isWordChar c = true ∧ isTermChar c = true ∧ isBracket c = false ∧ Settled c :=
  forall_ascii (P := fun c => isPlainChar c = true → isWordChar c = true ∧
    isTermChar c = true ∧ isBracket c = false ∧ Settled c) (by decide +kernel)
    (ascii_of_isPlainChar h) h

/-- Plain characters are read as they stand. -/
theorem foldLetter_of_isPlainChar {c : Char} (h : isPlainChar c = true) : foldLetter c = c :=
  forall_ascii (P := fun c => isPlainChar c = true → foldLetter c = c) (by decide +kernel)
    (ascii_of_isPlainChar h) h

theorem classes_of_isQuote {c : Char} (h : isQuote c = true) :
    isWordChar c = false ∧ isBlank c = false ∧ isBracket c = false ∧ Settled c := by
  rw [isQuote, Bool.or_eq_true, beq_iff_eq, beq_iff_eq] at h
  obtain rfl | rfl := h
  · decide
  · decide

/-- The text `word` is not empty, and each of its characters is an `isPlainChar`. -/
structure PlainWord (word : List Char) : Prop where
  ne_nil : word ≠ []
  plain : ∀ c ∈ word, isPlainChar c = true

instance (word : List Char) : Decidable (PlainWord word) :=
  decidable_of_iff (word ≠ [] ∧ ∀ c ∈ word, isPlainChar c = true)
    ⟨fun h => ⟨h.1, h.2⟩, fun h => ⟨h.ne_nil, h.plain⟩⟩

namespace PlainWord

variable {word : List Char}

theorem wordLike (h : PlainWord word) : WordLike word :=
  ⟨h.ne_nil, fun c hc => (classes_of_isPlainChar (h.plain c hc)).1⟩

theorem lower_eq (h : PlainWord word) : lower word = word :=
  lower_eq_self fun c hc => (classes_of_isPlainChar (h.plain c hc)).2.2.2

theorem stopsBefore (h : PlainWord word) : StopsBefore isBlank word :=
  .of_forall h.wordLike.unbroken.blankFree

theorem stopsBefore_reverse (h : PlainWord word) : StopsBefore isBlank word.reverse :=
  .of_forall fun c hc => h.wordLike.unbroken.blankFree c (List.mem_reverse.1 hc)

theorem trim_eq (h : PlainWord word) : trim word = word :=
  trim_eq_self h.stopsBefore h.stopsBefore_reverse

theorem isTermChar (h : PlainWord word) : ∀ c ∈ word, isTermChar c = true :=
  fun c hc => (classes_of_isPlainChar (h.plain c hc)).2.1

end PlainWord

/-! ## Words as a search gives them -/

/-- Quotes around a text bring in no word. -/
theorem startsWord_quoted {v : List Char} (hv : WordLike v) {q : Char} (hq : isQuote q = true)
    (s : List Char) : StartsWord v (q :: (s ++ [q])) ↔ StartsWord v s := by
  have hstop := (classes_of_isQuote hq).1
  have hnil := not_startsWord_nil hv.ne_nil
  have hfront := startsWord_append_cons hv hstop [] (s ++ [q])
  have hback := startsWord_append_cons hv hstop s []
  rw [List.nil_append] at hfront
  rw [hfront, hback, or_iff_right hnil, or_iff_left hnil]

/-- The text `term` is `word`, alone or between two quotes of one kind. -/
inductive Writes (word : List Char) : List Char → Prop where
  | plain : Writes word word
  | quoted (q : Char) : isQuote q = true → Writes word (q :: (word ++ [q]))

namespace Writes

variable {α : Type u} {openers : List String} {read : Option Char → List Char → Option α}
  {word term : List Char}

theorem ne_nil (h : Writes word term) (hword : PlainWord word) : term ≠ [] := by
  cases h with
  | plain => exact hword.ne_nil
  | quoted q hq => exact List.cons_ne_nil q _

/-- The text has no blank and no bracket, and it is in lower case. -/
theorem classes (h : Writes word term) (hword : PlainWord word) :
    ∀ c ∈ term, isBlank c = false ∧ isBracket c = false ∧ Settled c := by
  have hplain : ∀ c ∈ word, isBlank c = false ∧ isBracket c = false ∧ Settled c := by
    intro c hc
    obtain ⟨hclass, -, hrest⟩ := classes_of_isPlainChar (hword.plain c hc)
    exact ⟨isBlank_of_isWordChar hclass, hrest⟩
  cases h with
  | plain => exact hplain
  | quoted q hq =>
      have hquote := (classes_of_isQuote hq).2
      rw [List.forall_mem_cons, List.forall_mem_append, List.forall_mem_singleton]
      exact ⟨hquote, hplain, hquote⟩

/-- The keywords of `term` are those of `word`. -/
theorem startsWord_iff (h : Writes word term) {v : List Char} (hv : WordLike v) :
    StartsWord v term ↔ StartsWord v word := by
  cases h with
  | plain => exact Iff.rfl
  | quoted q hq => exact startsWord_quoted hv hq word

/-- The whole words of the text are those of the word. -/
theorem containsWord_eq (h : Writes word term) {v : String} (hv : WordLike v.toList) :
    containsWord term v = containsWord word v := by
  cases h with
  | plain => rfl
  | quoted q hq =>
      have hstop := (classes_of_isQuote hq).1
      have hnil := containsWordAfter_nil hv none
      have hfront := containsWordAfter_append_cons hv hstop none [] (word ++ [q])
      have hback := containsWordAfter_append_cons hv hstop none word []
      rw [List.nil_append] at hfront
      rw [containsWord, containsWord, hfront, hback, hnil, Bool.false_or, Bool.or_false]

/-- A reader passes over `term` unless it reads `word` together with what follows. -/
theorem firstReading?_append_cons (h : Writes word term) (hword : PlainWord word)
    (hread : OpensWith openers read) {s : List Char} (hnone : read none (word ++ ' ' :: s) = none) :
    firstReading? read none (term ++ ' ' :: s) = firstReading? read none s := by
  cases h with
  | plain => exact hread.starts.firstReading?_append_cons (by decide) hword.wordLike hnone
  | quoted q hq =>
      obtain ⟨hstop, hblank, -⟩ := classes_of_isQuote hq
      rw [List.cons_append, List.append_assoc, List.singleton_append,
        hread.firstReading?_cons_stop hstop,
        hread.firstReading?_append_cons_stop hword.wordLike hstop hblank,
        hread.firstReading?_cons_stop (by decide)]

/-- There is nothing to read in the text at the end. -/
theorem firstReading?_eq_none (h : Writes word term) (hword : PlainWord word)
    (hread : OpensWith openers read) : firstReading? read none term = none := by
  cases h with
  | plain => exact hread.firstReading?_of_wordLike hword.wordLike
  | quoted q hq =>
      obtain ⟨hstop, hblank, -⟩ := classes_of_isQuote hq
      rw [hread.firstReading?_cons_stop hstop,
        hread.firstReading?_append_cons_stop hword.wordLike hstop hblank,
        hread.firstReading?_nil]

/-- The reader `quotedTerm?` reads `word` in `term`. -/
theorem quotedTerm?_eq (h : Writes word term) (hword : PlainWord word) :
    quotedTerm? term = some word := by
  cases h with
  | plain =>
      have hterm := quotedTerm?_append hword.ne_nil hword.isTermChar (stopsBefore_nil _)
      rwa [List.append_nil] at hterm
  | quoted q hq => exact quotedTerm?_quote hq hword.ne_nil hword.isTermChar []

end Writes

/-- A plain word is the term where it is read without a connective. -/
theorem PlainWord.quotedTerm?_eq {word : List Char} (h : PlainWord word) :
    quotedTerm? word = some word :=
  Writes.plain.quotedTerm?_eq h

end FileClerk.Command
