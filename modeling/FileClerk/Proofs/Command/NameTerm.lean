import FileClerk.Command.NameTerm
import FileClerk.Proofs.Text.Piece

/-!
# Name terms behind other words

A name term is read at the first place where a word starts with "name". A word in front of the text
that does not hold the letters of "name", and the blanks behind it, change nothing
(`nameTerm?_append_gap`). Behind "name" and a connective the term goes on up to the first character
that no term holds, and a quote around it is such a character (`nameTermAt?_connective`,
`quotedTerm?_append`, `quotedTerm?_quote`). A text starts with one connective at most, so what is
read behind it does not depend on the others (`termAfterConnective?_eq`).
-/

set_option autoImplicit false

namespace FileClerk.Text

/-! ## Occurrences -/

/-- The test `occursIn` decides `<:+:`. -/
theorem occursIn_iff_infix {needle s : List Char} : occursIn needle s = true ↔ needle <:+: s := by
  induction s with
  | nil => rw [occursIn, List.isEmpty_iff, List.infix_nil]
  | cons c rest ih =>
      rw [occursIn, Bool.or_eq_true, ih, List.isPrefixOf_iff_prefix, List.infix_cons_iff]

/-! ## Occurrences on both sides of a character -/

/-- A text without a character is a prefix of what stands before it, or of nothing. -/
theorem isPrefixOf_append_cons {needle : List Char} {c : Char} (hc : c ∉ needle)
    (front back : List Char) :
    needle.isPrefixOf (front ++ c :: back) = needle.isPrefixOf front := by
  induction needle generalizing front with
  | nil => rw [List.isPrefixOf_nil_left, List.isPrefixOf_nil_left]
  | cons d needle ih =>
      rw [List.mem_cons, not_or] at hc
      cases front with
      | nil => simp [List.isPrefixOf, Ne.symm hc.1]
      | cons e front => rw [List.cons_append, List.isPrefixOf, List.isPrefixOf, ih hc.2]

/-- A `needle` without the character `c` occurs on one side of it. -/
theorem occursIn_append_cons {needle : List Char} (hne : needle ≠ []) {c : Char}
    (hc : c ∉ needle) (front back : List Char) :
    occursIn needle (front ++ c :: back) = (occursIn needle front || occursIn needle back) := by
  have hempty : needle.isEmpty = false := List.isEmpty_eq_false_iff.2 hne
  induction front with
  | nil =>
      have hhere : needle.isPrefixOf (c :: back) = needle.isPrefixOf [] :=
        isPrefixOf_append_cons hc [] back
      have hnil : needle.isPrefixOf [] = needle.isEmpty := by cases needle <;> rfl
      simp only [List.nil_append, occursIn, hhere, hnil]
  | cons d front ih =>
      have hhere := isPrefixOf_append_cons hc (d :: front) back
      rw [List.cons_append] at hhere ⊢
      rw [occursIn, occursIn, hhere, ih, Bool.or_assoc]

/-- A text without blanks occurs on one side of a gap. -/
theorem occursIn_append_gap {needle : List Char} (hneedle : Unbroken needle) {gap : List Char}
    (hne : gap ≠ []) (hgap : Blanks gap) (front back : List Char) :
    occursIn needle (front ++ (gap ++ back)) = (occursIn needle front || occursIn needle back) := by
  induction gap generalizing front with
  | nil => exact absurd rfl hne
  | cons c gap ih =>
      have hmem := hneedle.notMem_of_isBlank (hgap c List.mem_cons_self)
      rw [List.cons_append, occursIn_append_cons hneedle.ne_nil hmem]
      -- the rest of the gap is empty, or it has nothing before it
      by_cases hrest : gap = []
      · rw [hrest, List.nil_append]
      · have hmore := ih hrest (fun d hd => hgap d (List.mem_cons_of_mem _ hd)) []
        have hempty : occursIn needle [] = false := List.isEmpty_eq_false_iff.2 hneedle.ne_nil
        rw [List.nil_append, hempty, Bool.false_or] at hmore
        rw [hmore]

end FileClerk.Text

namespace FileClerk.Command

open FileClerk.Text

/-! ## Name terms -/

theorem readsWordStarts_nameTermAt? : ReadsWordStarts nameTermAt? := by
  intro before s
  cases hbefore : before.any isWordChar with
  | true => rw [nameTermAt?, if_pos hbefore, if_pos rfl]
  | false => simp [nameTermAt?, hbefore]

theorem nameTermAt?_isBlank (c : Char) (rest : List Char) (hc : isBlank c = true) :
    nameTermAt? none (c :: rest) = none := by
  have hname : afterLetters ['n', 'a', 'm', 'e'] (c :: rest) = none :=
    afterLetters_eq_none_of_isBlank (by simp) (by decide) hc rest
  simp [nameTermAt?, hname]

/-- A word without `name` in it, and the blanks behind it, change no name term of the text that
follows. -/
theorem nameTerm?_append_gap {word gap : List Char} (hword : WordLike word) (hne : gap ≠ [])
    (hgap : Blanks gap) (hoccurs : occursIn ['n', 'a', 'm', 'e'] word = false) (text : List Char)
    (hread : nameTermAt? none (word ++ (gap ++ text)) = none) :
    nameTerm? (word ++ (gap ++ text)) = nameTerm? text := by
  have hfirst := readsWordStarts_nameTermAt?.firstReading?_append_gap nameTermAt?_isBlank hword
    hne hgap hread
  have hname : Unbroken ['n', 'a', 'm', 'e'] := by decide
  rw [nameTerm?, nameTerm?, hfirst, occursIn_append_gap hname hne hgap, hoccurs, Bool.false_or]

/-! ## What terms consist of -/

section Characters

variable {P : Char → Prop}

theorem forall_of_quotedTerm? {s term : List Char} (h : quotedTerm? s = some term)
    (hs : ∀ c ∈ s, isTermChar c = true → P c) : ∀ c ∈ term, P c := by
  have hstretch : ∀ u, u ⊆ s → ∀ c ∈ u.takeWhile isTermChar, P c := fun u hu c hc =>
    hs c (hu ((List.takeWhile_prefix _).subset hc)) (List.mem_takeWhile_imp hc)
  unfold quotedTerm? at h
  split at h
  · cases h
  · rename_i c rest
    split at h
    · split at h
      · cases h
        exact hstretch rest (List.subset_cons_self c rest)
      · cases h
    · split at h
      · cases h
        exact hstretch (c :: rest) (List.Subset.refl _)
      · cases h

theorem forall_of_termAfterConnective? {s term : List Char}
    (h : termAfterConnective? s = some term) (hspace : P ' ')
    (hs : ∀ c ∈ s, isTermChar c = true → P c) : ∀ c ∈ term, P c := by
  obtain ⟨word, -, hword⟩ := List.exists_of_findSome?_eq_some h
  obtain ⟨rest, hrest, hterm⟩ := Option.bind_eq_some_iff.1 hword
  obtain ⟨u, rfl, -⟩ := afterLetters_eq_some_iff.1 hrest
  unfold termAfter? at hterm
  split at hterm
  · rename_i found hfound
    cases hterm
    exact forall_of_quotedTerm? hfound fun c hc =>
      hs c (List.mem_append_right u ((List.dropWhile_suffix _).subset hc))
  · -- the blanks are the term
    split at hterm
    · cases hterm
      exact List.forall_mem_singleton.2 hspace
    · cases hterm

theorem forall_of_nameTermAt? {before : Option Char} {s term : List Char}
    (h : nameTermAt? before s = some term) (hspace : P ' ')
    (hs : ∀ c ∈ s, isTermChar c = true → P c) : ∀ c ∈ term, P c := by
  rw [readsWordStarts_nameTermAt?] at h
  split at h
  · cases h
  simp only [nameTermAt?, Option.any_none, Bool.false_eq_true, if_false, Option.bind_eq_bind,
    Option.bind_eq_some_iff] at h
  obtain ⟨rest, hrest, hterm⟩ := h
  obtain ⟨u, rfl, -⟩ := afterLetters_eq_some_iff.1 hrest
  have hbody : ∀ c ∈ rest.dropWhile isBlank, isTermChar c = true → P c := fun c hc =>
    hs c (List.mem_append_right u ((List.dropWhile_suffix _).subset hc))
  split at hterm
  · cases hterm
  · rcases Option.or_eq_some_iff.1 hterm with hread | ⟨-, hblanks⟩
    · rcases Option.or_eq_some_iff.1 hread with hconnective | ⟨-, hquoted⟩
      · exact forall_of_termAfterConnective? hconnective hspace hbody
      · exact forall_of_quotedTerm? hquoted hbody
    · split at hblanks
      · cases hblanks
        exact List.forall_mem_singleton.2 hspace
      · cases hblanks

/-- What holds of a space and of the characters of a text that may stand in a term holds of the
characters of its term. -/
theorem forall_of_nameTerm? {text term : List Char} (h : nameTerm? text = some term)
    (hspace : P ' ') (htext : ∀ c ∈ text, isTermChar c = true → P c) : ∀ c ∈ term, P c := by
  unfold nameTerm? at h
  split at h
  · split at h
    · cases h
    · rename_i whole hwhole
      split at h
      · cases h
      · cases h
        obtain ⟨front, back, rfl, hread⟩ := exists_of_firstReading? hwhole
        exact fun c hc => forall_of_nameTermAt? hread hspace
          (fun d hd => htext d (List.mem_append_right front hd)) c (trim_subset hc)
  · cases h

end Characters

/-- The characters of a term are `isTermChar`: `[\w .-]`. -/
theorem isTermChar_of_nameTerm? {text term : List Char} (h : nameTerm? text = some term) :
    ∀ c ∈ term, isTermChar c = true :=
  forall_of_nameTerm? h (by decide) fun _ _ hc => hc

/-! ## Where terms end -/

/-- A quote is no `isTermChar`. -/
theorem isTermChar_of_isQuote {c : Char} (h : isQuote c = true) : isTermChar c = false := by
  rw [isQuote, Bool.or_eq_true, beq_iff_eq, beq_iff_eq] at h
  obtain rfl | rfl := h
  · decide
  · decide

/-- The reader `quotedTerm?` goes on up to the first character that is no `isTermChar`. -/
theorem quotedTerm?_append {term rest : List Char} (hne : term ≠ [])
    (hterm : ∀ c ∈ term, isTermChar c = true) (hrest : StopsBefore isTermChar rest) :
    quotedTerm? (term ++ rest) = some term := by
  have htake : (term ++ rest).takeWhile isTermChar = term := takeWhile_append_stop hterm hrest
  obtain ⟨c, term, rfl⟩ := List.exists_cons_of_ne_nil hne
  have hc : isTermChar c = true := hterm c List.mem_cons_self
  have hquote : isQuote c = false := by
    rw [← Bool.not_eq_true]
    intro hquote
    rw [isTermChar_of_isQuote hquote] at hc
    cases hc
  rw [List.cons_append] at htake ⊢
  simp only [quotedTerm?, hquote, hc, htake, Bool.false_eq_true, if_false, if_true]

/-- A term between quotes ends at the second one. -/
theorem quotedTerm?_quote {q : Char} (hq : isQuote q = true) {term : List Char} (hne : term ≠ [])
    (hterm : ∀ c ∈ term, isTermChar c = true) (rest : List Char) :
    quotedTerm? (q :: (term ++ q :: rest)) = some term := by
  have hstop : StopsBefore isTermChar (q :: rest) :=
    stopsBefore_cons.2 (isTermChar_of_isQuote hq)
  have htake : (term ++ q :: rest).takeWhile isTermChar = term := takeWhile_append_stop hterm hstop
  obtain ⟨c, term, rfl⟩ := List.exists_cons_of_ne_nil hne
  have hc : isTermChar c = true := hterm c List.mem_cons_self
  rw [List.cons_append] at htake ⊢
  simp only [quotedTerm?, hq, List.head?_cons, Option.any_some, hc, htake, if_true]

/-! ## Connectives -/

/-- A text starts with one of the `connectives` at most. -/
theorem connective_unique {k k' : String} (hk : k ∈ connectives) (hk' : k' ∈ connectives)
    {s rest rest' : List Char} (h : afterLetters k.toList s = some rest)
    (h' : afterLetters k'.toList s = some rest') : k = k' := by
  -- no connective is the start of another one
  have hapart : ∀ k ∈ connectives, ∀ k' ∈ connectives, k.toList <+: k'.toList → k = k' := by
    decide
  obtain ⟨u, rfl, hu⟩ := afterLetters_eq_some_iff.1 h
  obtain ⟨u', hs, hu'⟩ := afterLetters_eq_some_iff.1 h'
  have hprefix : u' <+: u ++ rest := ⟨rest', hs.symm⟩
  rcases List.prefix_or_prefix_of_prefix (List.prefix_append u rest) hprefix with hle | hle
  · exact hapart k hk k' hk' (hu ▸ hu' ▸ hle.map foldLetter)
  · exact (hapart k' hk' k hk (hu ▸ hu' ▸ hle.map foldLetter)).symm

/-- The reader `termAfterConnective?` is `termAfter?` behind the connective that the text starts
with. -/
theorem termAfterConnective?_eq {k : String} (hk : k ∈ connectives) {s rest : List Char}
    (h : afterLetters k.toList s = some rest) : termAfterConnective? s = termAfter? rest := by
  have hread : ∀ k' ∈ connectives, ∀ term,
      (afterLetters k'.toList s).bind termAfter? = some term → termAfter? rest = some term := by
    intro k' hk' term hterm
    obtain ⟨rest', hrest', hterm'⟩ := Option.bind_eq_some_iff.1 hterm
    obtain rfl := connective_unique hk hk' h hrest'
    rw [h] at hrest'
    exact (Option.some.inj hrest').symm ▸ hterm'
  cases hfound : termAfterConnective? s with
  | some term =>
      obtain ⟨k', hk', hterm⟩ := List.exists_of_findSome?_eq_some hfound
      exact (hread k' hk' term hterm).symm
  | none =>
      have hnone := List.findSome?_eq_none_iff.1 hfound k hk
      rw [h] at hnone
      exact hnone.symm

theorem termAfterConnective?_eq_none {s : List Char}
    (h : ∀ k ∈ connectives, afterLetters k.toList s = none) : termAfterConnective? s = none := by
  refine List.findSome?_eq_none_iff.2 fun k hk => ?_
  rw [h k hk]
  rfl

/-- Behind `name` and a space stands the term, perhaps with a connective in front of it. -/
theorem nameTermAt?_space {body : List Char} (hbody : StopsBefore isBlank body) :
    nameTermAt? none ("name".toList ++ ' ' :: body) =
      (termAfterConnective? body).or (quotedTerm? body) := by
  have hname : ∀ s, afterLetters ['n', 'a', 'm', 'e'] ("name".toList ++ s) = some s :=
    fun s => afterLetters_eq_some_iff.2 ⟨"name".toList, rfl, by decide⟩
  have hblanks : Blanks [' '] := by decide
  have htake := takeWhile_append_stop hblanks hbody
  have hdrop := dropWhile_append_stop hblanks hbody
  rw [List.singleton_append] at htake hdrop
  -- a single blank is no term by itself
  simp only [nameTermAt?, Option.any_none, Bool.false_eq_true, if_false, hname,
    Option.bind_eq_bind, Option.bind_some, htake, hdrop, List.isEmpty_cons, List.length_singleton,
    Nat.lt_irrefl, Option.or_none]

/-- Behind `name`, a connective and a space stands the term. -/
theorem nameTermAt?_connective {k : String} (hk : k ∈ connectives) {body term : List Char}
    (hbody : StopsBefore isBlank body) (hterm : quotedTerm? body = some term) :
    nameTermAt? none ("name".toList ++ ' ' :: (k.toList ++ ' ' :: body)) = some term := by
  have hletters : ∀ k ∈ connectives, k.toList.map foldLetter = k.toList ∧ Unbroken k.toList := by
    decide
  obtain ⟨hfold, hunbroken⟩ := hletters k hk
  have hgap : StopsBefore isBlank (k.toList ++ ' ' :: body) :=
    stopsBefore_append hunbroken.ne_nil (.of_forall hunbroken.blankFree) _
  have hblank : isBlank ' ' = true := by decide
  have hconnective : termAfterConnective? (k.toList ++ ' ' :: body) = some term := by
    rw [termAfterConnective?_eq hk (afterLetters_eq_some_iff.2 ⟨k.toList, rfl, hfold⟩),
      termAfter?, List.dropWhile_cons_of_pos hblank, hbody.dropWhile_eq, hterm]
  rw [nameTermAt?_space hgap, hconnective, Option.some_or]

/-! ## The term of a text -/

/-- What `nameTermAt?` reads first is the term of the text, once it is trimmed. -/
theorem nameTerm?_eq_some_trim {text whole : List Char} (hname : "name".toList <:+: text)
    (hread : firstReading? nameTermAt? none text = some whole) (hne : trim whole ≠ []) :
    nameTerm? text = some (trim whole) := by
  have hoccurs : occursIn ['n', 'a', 'm', 'e'] text = true := occursIn_iff_infix.2 hname
  rw [nameTerm?, if_pos hoccurs, hread]
  simp [hne]

/-- A term that is read and has no blanks at its ends is the term of the text. -/
theorem nameTerm?_eq_some {text term : List Char} (hname : "name".toList <:+: text)
    (hread : firstReading? nameTermAt? none text = some term) (hne : term ≠ [])
    (htrim : trim term = term) : nameTerm? text = some term := by
  have hterm := nameTerm?_eq_some_trim hname hread (htrim.symm ▸ hne)
  rwa [htrim] at hterm

end FileClerk.Command
