import FileClerk.Proofs.Command.SearchTerm

/-!
# Connectives in front of a term

A connective between "name" and a term is taken off. Nothing asks for a word to end where the
connective does, so it is taken off a longer word as well: "likely" starts with "like". A plain word
behind "name" is its own term exactly if no connective is a proper start of it, and behind a
connective and a space each plain word is (`nameTerm?_word_iff`). Of a word with such a start the
rest is left as the term (`nameTerm?_append_connective`).
-/

set_option autoImplicit false

namespace FileClerk.Command

open FileClerk.Text

variable {word : List Char}

/-! ## The start of a plain word -/

/-- The reader `afterLetters letters` reads the letters of a plain word as they are. -/
theorem PlainWord.afterLetters_eq_some_iff (h : PlainWord word) {letters rest : List Char} :
    afterLetters letters word = some rest ↔ word = letters ++ rest := by
  have hself : ∀ u, u <+: word → u.map foldLetter = u := by
    intro u hu
    calc u.map foldLetter = u.map id :=
          List.map_congr_left fun c hc => foldLetter_of_isPlainChar (h.plain c (hu.subset hc))
      _ = u := List.map_id u
  rw [Text.afterLetters_eq_some_iff]
  constructor
  · rintro ⟨u, rfl, rfl⟩
    rw [hself u (List.prefix_append u rest)]
  · rintro rfl
    exact ⟨letters, rfl, hself letters (List.prefix_append letters rest)⟩

/-- What is left of a plain word behind its first letters is a plain word. -/
theorem PlainWord.of_append {front : List Char} (h : PlainWord (front ++ word))
    (hne : word ≠ []) : PlainWord word :=
  ⟨hne, fun c hc => h.plain c (List.mem_append_right front hc)⟩

/-! ## Terms behind "name" -/

/-- A plain word that is read behind "name" and a space is the term of the text. -/
theorem nameTerm?_space {body : List Char} (hword : PlainWord word)
    (hread : nameTermAt? none ("name".toList ++ ' ' :: body) = some word) :
    nameTerm? ("name".toList ++ ' ' :: body) = some word :=
  nameTerm?_eq_some (List.prefix_append _ _).isInfix (firstReading?_eq_some hread) hword.ne_nil
    hword.trim_eq

/-- A connective `k` at the start of a plain word is taken off, and the rest of the word is the
term. -/
theorem nameTerm?_append_connective {k : String} (hk : k ∈ connectives) {rest : List Char}
    (hword : PlainWord (k.toList ++ rest)) (hne : rest ≠ []) :
    nameTerm? ("name".toList ++ ' ' :: (k.toList ++ rest)) = some rest := by
  have hrest : PlainWord rest := hword.of_append hne
  have hconnective : termAfterConnective? (k.toList ++ rest) = some rest := by
    rw [termAfterConnective?_eq hk (hword.afterLetters_eq_some_iff.2 rfl), termAfter?,
      hrest.stopsBefore.dropWhile_eq, hrest.quotedTerm?_eq]
  apply nameTerm?_space hrest
  rw [nameTermAt?_space hword.stopsBefore, hconnective, Option.some_or]

/-- A plain word that no connective properly starts is the term. A connective by itself has no term
behind it, so it is the term as well. -/
theorem nameTerm?_word (hword : PlainWord word)
    (hstart : ∀ k ∈ connectives, k.toList <+: word → word = k.toList) :
    nameTerm? ("name".toList ++ ' ' :: word) = some word := by
  have hconnective : termAfterConnective? word = none := by
    by_cases hall : ∀ k ∈ connectives, afterLetters k.toList word = none
    · exact termAfterConnective?_eq_none hall
    · -- nothing stands behind the connective
      simp only [not_forall, ← ne_eq, Option.ne_none_iff_exists'] at hall
      obtain ⟨k, hk, rest, hrest⟩ := hall
      have hsplit := hword.afterLetters_eq_some_iff.1 hrest
      have hself := hstart k hk ⟨rest, hsplit.symm⟩
      obtain rfl : rest = [] := List.append_right_eq_self.1 (hsplit.symm.trans hself)
      rw [termAfterConnective?_eq hk hrest]
      rfl
  apply nameTerm?_space hword
  rw [nameTermAt?_space hword.stopsBefore, hconnective, Option.none_or, hword.quotedTerm?_eq]

/-- The term `nameTerm? "name word"` is `word` exactly if no connective is a proper prefix of it.
Behind a connective and a space it always is. -/
theorem nameTerm?_word_iff (hword : PlainWord word) :
    (nameTerm? ("name".toList ++ ' ' :: word) = some word ↔
      ∀ k ∈ connectives, k.toList <+: word → word = k.toList) ∧
    ∀ k ∈ connectives,
      nameTerm? ("name".toList ++ ' ' :: (k.toList ++ ' ' :: word)) = some word := by
  refine ⟨⟨?_, nameTerm?_word hword⟩, fun k hk => ?_⟩
  · rintro hterm k hk ⟨rest, rfl⟩
    by_contra hproper
    -- the rest alone would be the term, and it is shorter than the word
    have hne : rest ≠ [] := by simpa using hproper
    have hletters : ∀ k ∈ connectives, k.toList ≠ [] := by decide
    rw [nameTerm?_append_connective hk hword hne, Option.some.injEq] at hterm
    exact hletters k hk (List.append_left_eq_self.1 hterm.symm)
  · exact nameTerm?_space hword
      (nameTermAt?_connective hk hword.stopsBefore hword.quotedTerm?_eq)

/-- A word that starts like no connective. -/
theorem nameTerm?_word_report :
    (nameTerm? ("name".toList ++ ' ' :: "report_2023".toList) = some "report_2023".toList ↔
      ∀ k ∈ connectives, k.toList <+: "report_2023".toList → "report_2023".toList = k.toList) ∧
    ∀ k ∈ connectives, nameTerm? ("name".toList ++ ' ' :: (k.toList ++
      ' ' :: "report_2023".toList)) = some "report_2023".toList :=
  nameTerm?_word_iff (by decide)

/-- The term `nameTerm? "name likely"` is `ly`. -/
theorem connective_not_whole_word :
    ¬ ∀ word : List Char, PlainWord word → (∀ k ∈ connectives, word ≠ k.toList) →
      nameTerm? ("name".toList ++ ' ' :: word) = some word := by
  intro hall
  exact absurd (hall "likely".toList (by decide) (by decide)) (by decide)

end FileClerk.Command
