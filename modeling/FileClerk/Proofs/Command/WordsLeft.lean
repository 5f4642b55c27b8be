import FileClerk.Proofs.Command.LowerPhrase
import FileClerk.Proofs.Command.OuterBlanks
import FileClerk.Proofs.Command.TypeWordOrder

/-!
# Words that are left without the destination

When destinations are taken out of a text, the parts on both sides of each of them come together,
with a space in between, and folder phrases are looked for in what bracket groups leave. No word
comes up at such a seam: a key has no space in it, so it lies between two seams, and where a key
starts behind a seam, it starts a word of the text as well. A bracket group ends in a bracket, and a
folder phrase ends where a word ends (`EndsWords`). So a keyword that stands in what is left of a
text stands in the text (`Blanked.standsAt`), and the type words of a text without its destinations
are type words of the text. Their order is another matter, since the first occurrence of a word may
lie in a destination (`typeWords_stripDestination_subset`).
-/

set_option autoImplicit false

namespace FileClerk.Command

open FileClerk.Text

universe u

variable {α : Type u}

/-! ## Readings taken out -/

/-- The text `left` is what is left of a text behind the character `before` when a space takes the
place of each reading. A character that starts no reading stays, and a reading takes up the
characters `taken`. -/
inductive Blanked (read : Reader α) : Option Char → List Char → List Char → Prop
  | nil {before : Option Char} : Blanked read before [] []
  | plain {before : Option Char} {c : Char} {s left : List Char}
      (rest : Blanked read (some c) s left) : Blanked read before (c :: s) (c :: left)
  | found {before : Option Char} {taken s left : List Char} {a : α} (ne_nil : taken ≠ [])
      (here : read before (taken ++ s) = some (a, taken.length))
      (rest : Blanked read (taken.getLast?.or before) s left) :
      Blanked read before (taken ++ s) (' ' :: left)

section Readers

variable {read : Reader α}

/-- A reading at the start of a text leaves a space in front of what the rest leaves. -/
theorem blankOutFrom_append {before : Option Char} {taken s : List Char} {a : α}
    (hne : taken ≠ []) (h : read before (taken ++ s) = some (a, taken.length)) :
    blankOutFrom read before 0 (taken ++ s) =
      ' ' :: blankOutFrom read (taken.getLast?.or before) 0 s := by
  obtain ⟨c, taken, rfl⟩ := List.exists_cons_of_ne_nil hne
  rw [List.cons_append, List.length_cons] at h
  rw [getLast?_cons_or, List.cons_append, blankOutFrom, piecesFrom, h]
  simp only [piecesFrom_skip_append]
  rfl

/-- A character at which nothing is read stays in front of what the rest leaves. -/
theorem blankOutFrom_cons {before : Option Char} {c : Char} {s : List Char}
    (h : ∀ a n, read before (c :: s) ≠ some (a, n + 1)) :
    blankOutFrom read before 0 (c :: s) = c :: blankOutFrom read (some c) 0 s := by
  rw [blankOutFrom, piecesFrom]
  split
  · rename_i a n hread
    exact absurd hread (h a n)
  · rfl

/-- The function `blankOutFrom` leaves a text as `Blanked` says, if readings stay inside of the
text. -/
theorem blanked_blankOutFrom
    (hlength : ∀ before s a n, read before s = some (a, n) → n ≤ s.length) (before : Option Char)
    (s : List Char) : Blanked read before s (blankOutFrom read before 0 s) := by
  induction hcount : s.length using Nat.strong_induction_on generalizing before s with
  | _ count ih =>
      subst hcount
      cases s with
      | nil =>
          rw [blankOutFrom, piecesFrom]
          exact .nil
      | cons c rest =>
          by_cases hread : ∃ a n, read before (c :: rest) = some (a, n + 1)
          · -- a reading takes up a part of the text, and what follows it is shorter
            obtain ⟨a, n, hread⟩ := hread
            obtain ⟨taken, back, hsplit, htaken⟩ : ∃ taken back, c :: rest = taken ++ back ∧
                taken.length = n + 1 :=
              ⟨_, _, (List.take_append_drop (n + 1) (c :: rest)).symm,
                List.length_take_of_le (hlength before (c :: rest) a (n + 1) hread)⟩
            have hne : taken ≠ [] := List.ne_nil_of_length_eq_add_one htaken
            rw [hsplit, ← htaken] at hread
            rw [hsplit, blankOutFrom_append hne hread]
            refine .found hne hread (ih back.length ?_ _ back rfl)
            rw [hsplit, List.length_append]
            omega
          · rw [blankOutFrom_cons fun a n h => hread ⟨a, n, h⟩]
            exact .plain (ih rest.length (Nat.lt_succ_self _) _ rest rfl)

/-! ## Where readings end -/

/-- No word goes on across the end of a reading of `read`. -/
def EndsWords (read : Reader α) : Prop :=
  ∀ before taken s a, read before (taken ++ s) = some (a, taken.length) →
    taken.getLast?.any isWordChar = false ∨ StopsBefore isWordChar s

end Readers

/-- The reader `bracketGroup` ends in a bracket. -/
theorem endsWords_bracketGroup : EndsWords bracketGroup := by
  intro before taken s body h
  obtain ⟨hlength, -, back, heq⟩ := bracketGroup_eq_some_iff.1 h
  -- the reading and the group are of one length, so they are the same part of the text
  have hgroup : '[' :: (body ++ ']' :: back) = ('[' :: body ++ [']']) ++ back := by simp
  rw [hgroup] at heq
  obtain ⟨rfl, -⟩ := List.append_inj heq (by simp [hlength])
  exact Or.inl (by rw [List.getLast?_concat]; decide)

/-- The reader `folderPhrase` ends where its noun ends. -/
theorem endsWords_folderPhrase : EndsWords folderPhrase := by
  intro before taken s words h
  obtain ⟨-, p, rest, -, heq, hlength, -, hrest⟩ := exists_of_folderPhrase h
  obtain ⟨-, rfl⟩ := List.append_inj heq hlength
  exact Or.inr hrest

/-! ## Keys -/

/-- The text `word` starts with a word character, and besides word characters it has at most the
dots `\u0307` that `lower` leaves behind for `İ`. -/
structure IsKey (word : List Char) : Prop where
  starts : ∃ c rest, word = c :: rest ∧ isWordChar c = true
  chars : ∀ d ∈ word, isWordChar d = true ∨ d = '\u0307'

/-- A form of a word character is a key by itself. -/
theorem isKey_formAt {c : Char} (hc : isWordChar c = true) (before rest : List Char) :
    IsKey (formAt before c rest) := by
  by_cases hdot : c = 'İ'
  · -- the only character with a form of two characters
    have hform : formAt before c rest = ['i', '\u0307'] := by
      rw [hdot, formAt, if_neg (by decide)]
      decide +kernel
    rw [hform]
    exact ⟨⟨'i', ['\u0307'], rfl, by decide⟩, by decide⟩
  · obtain ⟨d, hform, hd⟩ := exists_formAt_eq hdot before rest
    have hword : isWordChar d = true := by
      rw [← keepsReading_readAs.isWordChar_eq, hd, keepsReading_readAs.isWordChar_eq, hc]
    rw [hform]
    exact ⟨⟨d, [], rfl, hword⟩, fun e he => Or.inl (List.mem_singleton.1 he ▸ hword)⟩

theorem IsKey.append {word more : List Char} (h : IsKey word)
    (hmore : ∀ d ∈ more, isWordChar d = true ∨ d = '\u0307') : IsKey (word ++ more) := by
  obtain ⟨⟨c, rest, rfl, hc⟩, hchars⟩ := h
  exact ⟨⟨c, rest ++ more, rfl, hc⟩, List.forall_mem_append.2 ⟨hchars, hmore⟩⟩

theorem mem_lowerAfter_wordChars {s : List Char} (h : ∀ c ∈ s, isWordChar c = true)
    (before : List Char) : ∀ d ∈ lowerAfter before s, isWordChar d = true ∨ d = '\u0307' := by
  induction s generalizing before with
  | nil =>
      intro d hd
      cases hd
  | cons c rest ih =>
      obtain ⟨hc, hrest⟩ := List.forall_mem_cons.1 h
      rw [lowerAfter_cons]
      exact List.forall_mem_append.2 ⟨(isKey_formAt hc before rest).chars, ih hrest _⟩

/-- The lower-case form of a word is a key. -/
theorem isKey_lower {word : List Char} (h : WordLike word) : IsKey (lower word) := by
  obtain ⟨c, rest, rfl⟩ := List.exists_cons_of_ne_nil h.ne_nil
  obtain ⟨hc, hrest⟩ := List.forall_mem_cons.1 h.classes
  rw [lower, lowerAfter_cons]
  exact (isKey_formAt hc [] rest).append (mem_lowerAfter_wordChars hrest [c])

namespace IsKey

variable {word : List Char}

theorem ne_nil (h : IsKey word) : word ≠ [] := by
  obtain ⟨c, rest, rfl, -⟩ := h.starts
  exact List.cons_ne_nil c rest

/-- A key has no other characters in it. -/
theorem notMem (h : IsKey word) {c : Char} (hc : isWordChar c = false) (hdot : c ≠ '\u0307') :
    c ∉ word := by
  intro hmem
  rcases h.chars c hmem with hword | heq
  · rw [hword] at hc
    cases hc
  · exact hdot heq

/-- Where a key starts, a word goes on. -/
theorem not_stopsBefore (h : IsKey word) {s : List Char} (hs : word <+: s) :
    ¬ StopsBefore isWordChar s := by
  obtain ⟨c, rest, rfl, hc⟩ := h.starts
  obtain ⟨back, rfl⟩ := hs
  rw [List.cons_append, stopsBefore_cons, hc]
  decide

theorem isBlank_eq_false (h : IsKey word) : ∀ c ∈ word, isBlank c = false := by
  intro c hc
  rcases h.chars c hc with hword | rfl
  · exact isBlank_of_isWordChar hword
  · decide

theorem bracketFree (h : IsKey word) : BracketFree word := by
  intro c hc
  rw [← Bool.not_eq_true]
  intro hbracket
  refine h.notMem (isWordChar_of_isBracket hbracket) ?_ hc
  rintro rfl
  cases hbracket

end IsKey

/-! ## Keys across seams -/

section Seams

variable {read : Reader α} {before : Option Char} {word taken s left : List Char}

/-- A key that stands behind a part of a text at whose end no word goes on stands in the text. -/
theorem StandsAt.behind (hkey : IsKey word) (hne : taken ≠ [])
    (hend : taken.getLast?.any isWordChar = false ∨ StopsBefore isWordChar s) {n : Nat}
    (h : StandsAt false word s n) (inWord : Bool) :
    StandsAt inWord word (taken ++ s) (taken.length + n) := by
  obtain ⟨front, back, rfl, rfl, hfree⟩ := h
  refine ⟨taken ++ front, back, by rw [List.append_assoc], List.length_append, ?_⟩
  cases front with
  | nil =>
      -- the key starts where the part ends, so it is not a word that goes on there
      have hlast := hend.resolve_right (hkey.not_stopsBefore (List.prefix_append word back))
      rw [List.append_nil, List.getLast?_eq_some_getLast hne]
      rwa [List.getLast?_eq_some_getLast hne, Option.any_some] at hlast
  | cons c front =>
      rw [List.getLast?_append, List.getLast?_eq_some_getLast (List.cons_ne_nil c front),
        Option.some_or]
      rwa [List.getLast?_eq_some_getLast (List.cons_ne_nil c front)] at hfree

/-- What starts the text that is left and has no space in it starts the text. -/
theorem Blanked.prefix_of_left (h : Blanked read before s left) (hspace : ' ' ∉ word)
    (hword : word <+: left) : word <+: s := by
  induction h generalizing word with
  | nil => exact hword
  | @plain before c s left rest ih =>
      cases word with
      | nil => exact List.nil_prefix
      | cons d word =>
          obtain ⟨rfl, hmore⟩ := List.cons_prefix_cons.1 hword
          exact List.cons_prefix_cons.2
            ⟨rfl, ih (fun hmem => hspace (List.mem_cons_of_mem d hmem)) hmore⟩
  | found ne_nil here rest ih =>
      cases word with
      | nil => exact List.nil_prefix
      | cons d word =>
          obtain ⟨rfl, -⟩ := List.cons_prefix_cons.1 hword
          exact absurd List.mem_cons_self hspace

/-- A key that stands in `left` stands in the text. -/
theorem Blanked.standsAt (h : Blanked read before s left) (hread : EndsWords read)
    (hkey : IsKey word) {inWord : Bool} {n : Nat} (hstands : StandsAt inWord word left n) :
    ∃ m, StandsAt inWord word s m := by
  have hspace : ' ' ∉ word := hkey.notMem (by decide) (by decide)
  induction h generalizing inWord n with
  | nil => exact ⟨n, hstands⟩
  | @plain before c s left rest ih =>
      cases n with
      | zero =>
          -- up to the next seam the two texts are the same
          obtain ⟨hfree, hword⟩ := (standsAt_zero_iff _ _ _).1 hstands
          have hhere : Blanked read before (c :: s) (c :: left) := .plain rest
          exact ⟨0, (standsAt_zero_iff _ _ _).2 ⟨hfree, hhere.prefix_of_left hspace hword⟩⟩
      | succ n =>
          obtain ⟨m, hm⟩ := ih ((standsAt_succ_iff _ _ _ _ _).1 hstands)
          exact ⟨m + 1, (standsAt_succ_iff _ _ _ _ _).2 hm⟩
  | @found before taken s left a ne_nil here rest ih =>
      cases n with
      | zero =>
          -- the space in place of the reading is no part of the key
          obtain ⟨c, more, rfl, hc⟩ := hkey.starts
          obtain ⟨-, hword⟩ := (standsAt_zero_iff _ _ _).1 hstands
          rw [(List.cons_prefix_cons.1 hword).1] at hc
          exact absurd hc (by decide)
      | succ n =>
          obtain ⟨m, hm⟩ := ih ((standsAt_succ_iff _ _ _ _ _).1 hstands)
          exact ⟨_, hm.behind hkey ne_nil (hread before taken s a here) inWord⟩

/-- A key that starts a word of a text without its readings starts a word of the text. -/
theorem StartsWord.of_blankOut (hread : EndsWords read)
    (hlength : ∀ before s a n, read before s = some (a, n) → n ≤ s.length) (hkey : IsKey word)
    (h : StartsWord word (blankOut read s)) : StartsWord word s := by
  obtain ⟨n, hn⟩ := h
  exact (blanked_blankOutFrom hlength none s).standsAt hread hkey hn

/-- The function `stripDestination` brings in no key. -/
theorem StartsWord.of_stripDestination (hkey : IsKey word) {withPhrases : Bool}
    (h : StartsWord word (stripDestination withPhrases s)) : StartsWord word s := by
  have hgroups : ∀ {s}, StartsWord word (blankOut bracketGroup s) → StartsWord word s :=
    .of_blankOut endsWords_bracketGroup ignoresBlanks_bracketGroup.length hkey
  unfold stripDestination at h
  split at h
  · -- phrases are looked for in what the groups leave
    exact hgroups (.of_blankOut endsWords_folderPhrase ignoresBlanks_folderPhrase.length hkey h)
  · exact hgroups h

end Seams

/-! ## Words in another order -/

/-- Members of a list that is sorted by numbers stand in the order of their numbers. -/
theorem pair_sublist_of_lt {β : Type u} (number : β → Nat) {l : List β}
    (h : l.Pairwise fun a b => number a ≤ number b) {a b : β} (ha : a ∈ l) (hb : b ∈ l)
    (hlt : number a < number b) : [a, b].Sublist l := by
  obtain ⟨front, back, rfl⟩ := List.append_of_mem ha
  obtain ⟨-, -, hfront⟩ := List.pairwise_append.1 h
  have hback : b ∈ back := by
    rcases List.mem_append.1 hb with hmem | hmem
    · exact absurd (hfront b hmem a List.mem_cons_self) (Nat.not_le_of_gt hlt)
    · refine (List.mem_cons.1 hmem).resolve_left ?_
      rintro rfl
      exact Nat.lt_irrefl _ hlt
  exact ((List.singleton_sublist.2 hback).cons_cons a).trans (List.sublist_append_right _ _)

/-- A word does not reach over a character that is not in it. -/
theorem prefix_of_prefix_append_cons {word front tail : List Char} {d : Char} (hd : d ∉ word)
    (h : word <+: front ++ d :: tail) : word <+: front := by
  have hmark : front ++ [d] <+: front ++ d :: tail := ⟨tail, by simp⟩
  rcases List.prefix_or_prefix_of_prefix h hmark with hshort | hlong
  · rcases List.prefix_concat_iff.1 hshort with rfl | hfront
    · exact absurd (List.mem_append_right front (List.mem_singleton_self d)) hd
    · exact hfront
  · exact absurd (hlong.subset (List.mem_append_right front (List.mem_singleton_self d))) hd

section Order

variable {vocabulary : List String} {k k' : String}

/-- The list `typeWords` has two words in the order of their first places. -/
theorem pair_sublist_typeWords (hk : k ∈ vocabulary) (hk' : k' ∈ vocabulary) {text : List Char}
    {n n' : Nat} (hn : FirstAt (lower k.toList) text n) (hn' : FirstAt (lower k'.toList) text n')
    (hlt : n < n') : [k, k'].Sublist (typeWords text vocabulary) := by
  have hplaced : ∀ {k : String} {n : Nat}, k ∈ vocabulary → FirstAt (lower k.toList) text n →
      (n, k) ∈ (placedWords text vocabulary).mergeSort fun a b => a.1 ≤ b.1 := by
    intro k n hk hn
    refine List.mem_mergeSort.2 (List.mem_filterMap.2 ⟨k, hk, ?_⟩)
    rw [keywordPosition, firstAt_iff.1 hn, Option.map_some]
  have hall : (placedWords text vocabulary).Pairwise fun _ _ => True :=
    List.pairwise_of_forall fun _ _ => trivial
  have hsorted := (pairwise_mergeSort_of_pairwise Prod.fst hall).imp
    fun h => h.elim Nat.le_of_lt fun hsame => Nat.le_of_eq hsame.1
  exact (pair_sublist_of_lt Prod.fst hsorted (hplaced hk hn) (hplaced hk' hn') hlt).map Prod.snd

/-- Behind a first key and a separator, a key that does not start the first one comes later. -/
theorem pair_sublist_typeWords_append {c d : Char} (hc : isWordChar c = false)
    (hd : isWordChar d = false) (hdot : d ≠ '\u0307') (hk : k ∈ vocabulary) (hk' : k' ∈ vocabulary)
    (hkey : IsKey (lower k.toList)) (hkey' : IsKey (lower k'.toList))
    (hapart : ¬ lower k'.toList <+: lower k.toList) {tail : List Char}
    (htail : StartsWord (lower k'.toList) tail) :
    [k, k'].Sublist (typeWords (c :: (lower k.toList ++ d :: tail)) vocabulary) := by
  have hstart : ∀ {word s}, IsKey word → ¬ StandsAt false word (c :: s) 0 := by
    intro word s hword h
    exact hword.not_stopsBefore ((standsAt_zero_iff _ _ _).1 h).2 (stopsBefore_cons.2 hc)
  have hfirst : FirstAt (lower k.toList) (c :: (lower k.toList ++ d :: tail)) 1 := by
    refine ⟨⟨[c], d :: tail, rfl, rfl, by simpa using hc⟩, fun m hm => ?_⟩
    refine Nat.pos_of_ne_zero ?_
    rintro rfl
    exact hstart hkey hm
  obtain ⟨n, hn⟩ : ∃ n, FirstAt (lower k'.toList) (c :: (lower k.toList ++ d :: tail)) n := by
    have hseparator := startsWord_append_separator hkey'.ne_nil hd (hkey'.notMem hd hdot)
      (c :: lower k.toList) tail
    exact exists_firstAt_iff.2 (hseparator.2 (Or.inr htail))
  refine pair_sublist_typeWords hk hk' hfirst hn ?_
  match n, hn.1 with
  | 0, h => exact absurd h (hstart hkey')
  | 1, h =>
      -- it would start the first key, since it does not reach over the separator
      obtain ⟨-, hprefix⟩ := (standsAt_zero_iff _ _ _).1 ((standsAt_succ_iff _ _ _ _ _).1 h)
      exact absurd (prefix_of_prefix_append_cons (hkey'.notMem hd hdot) hprefix) hapart
  | n + 2, _ => exact Nat.succ_lt_succ (Nat.succ_pos n)

/-- A text without blanks has no folder phrase. -/
theorem firstReading?_folderPhrase_of_blankFree {s : List Char}
    (h : ∀ c ∈ s, isBlank c = false) (before : Option Char) :
    firstReading? folderPhrase before s = none := by
  rw [firstReading?_eq_none_iff]
  intro front back hs
  rw [folderPhrase_eq_none_iff]
  refine Or.inr fun rest hrest => ?_
  -- blanks would stand behind a preposition
  obtain ⟨u, more, rfl, -, hblank, -⟩ := afterPreposition?_eq_some_iff.1 hrest
  cases more with
  | nil => cases hblank
  | cons c more =>
      rw [List.head?_cons, Option.any_some, h c (by simp [hs])] at hblank
      cases hblank

/-- A bracket group in front of a text without brackets and blanks leaves a space. -/
theorem stripDestination_group_append {body tail : List Char} (hbody : BracketFree body)
    (htail : BracketFree tail) (hblank : ∀ c ∈ tail, isBlank c = false) (withPhrases : Bool) :
    stripDestination withPhrases ('[' :: (body ++ ']' :: tail)) = ' ' :: tail := by
  have hgroup : blankOut bracketGroup ('[' :: (body ++ ']' :: tail)) = ' ' :: tail := by
    have hcut := blankOut_group hbody [] tail
    rwa [blankOut_eq_self (firstReading?_bracketGroup htail none)] at hcut
  have hphrase : firstReading? folderPhrase none (' ' :: tail) = none := by
    rw [firstReading?_cons, ignoresBlanks_folderPhrase.blank none ' ' tail (by decide),
      Option.none_or, firstReading?_folderPhrase_of_blankFree hblank]
  rw [stripDestination, hgroup]
  split
  · exact blankOut_eq_self hphrase
  · rfl

/-- Neither of `k` and `k'` starts the other one, whatever their letter case. -/
def StartApart (k k' : String) : Prop :=
  ¬ lower k.toList <+: lower k'.toList ∧ ¬ lower k'.toList <+: lower k.toList

instance (k k' : String) : Decidable (StartApart k k') := inferInstanceAs (Decidable (_ ∧ _))

/-- A text in which `k` and `k'` change places: `k` stands in a bracket group, and once more behind
`k'`. -/
def swapText (k k' : String) : List Char :=
  '[' :: (lower k.toList ++ ']' :: (lower k'.toList ++ '.' :: lower k.toList))

/-- The list `typeWords` of `swapText k k'` has the words in the other order once `stripDestination`
has taken the group out. -/
theorem pair_sublist_typeWords_swapText (hk : k ∈ vocabulary) (hk' : k' ∈ vocabulary)
    (hkey : IsKey (lower k.toList)) (hkey' : IsKey (lower k'.toList)) (hapart : StartApart k k')
    (withPhrases : Bool) :
    [k, k'].Sublist (typeWords (swapText k k') vocabulary) ∧
      [k', k].Sublist (typeWords (stripDestination withPhrases (swapText k k')) vocabulary) := by
  have hfree : BracketFree (lower k'.toList ++ '.' :: lower k.toList) :=
    List.forall_mem_append.2
      ⟨hkey'.bracketFree, List.forall_mem_cons.2 ⟨by decide, hkey.bracketFree⟩⟩
  have hblank : ∀ d ∈ lower k'.toList ++ '.' :: lower k.toList, isBlank d = false :=
    List.forall_mem_append.2
      ⟨hkey'.isBlank_eq_false, List.forall_mem_cons.2 ⟨by decide, hkey.isBlank_eq_false⟩⟩
  rw [swapText, stripDestination_group_append hkey.bracketFree hfree hblank]
  constructor
  · exact pair_sublist_typeWords_append (by decide) (by decide) (by decide) hk hk' hkey hkey'
      hapart.2 (.at_start (List.prefix_append _ _))
  · exact pair_sublist_typeWords_append (by decide) (by decide) (by decide) hk' hk hkey' hkey
      hapart.1 (.at_start List.prefix_rfl)

end Order

/-! ## The type words that are left -/

/-- For a catalogue of words of word characters, `typeWords` of `stripDestination withPhrases text`
are among those of `text`. Their order may be another one: any two words that `StartApart` change
places in some text. -/
theorem typeWords_stripDestination_subset {c : Catalogue}
    (hwords : ∀ k ∈ c.vocabulary, WordLike k.toList) (withPhrases : Bool) :
    (∀ text, typeWords (stripDestination withPhrases text) c.vocabulary ⊆
        typeWords text c.vocabulary) ∧
      ∀ k ∈ c.vocabulary, ∀ k' ∈ c.vocabulary, StartApart k k' →
        ∃ text, [k, k'].Sublist (typeWords text c.vocabulary) ∧
          [k', k].Sublist (typeWords (stripDestination withPhrases text) c.vocabulary) := by
  have hkeys : ∀ k ∈ c.vocabulary, IsKey (lower k.toList) := fun k hk => isKey_lower (hwords k hk)
  refine ⟨fun text k hk => ?_, fun k hk k' hk' hapart => ⟨swapText k k', ?_⟩⟩
  · obtain ⟨hmem, hstarts⟩ := mem_typeWords.1 hk
    exact mem_typeWords.2 ⟨hmem, .of_stripDestination (hkeys k hmem) hstarts⟩
  · exact pair_sublist_typeWords_swapText hk hk' (hkeys k hk) (hkeys k' hk') hapart withPhrases

/-- A word whose lower-case form has a dot of its own, and words that start with each other. -/
def dottedCatalogue : Catalogue := ⟨[("İd", ["pdf"]), ("to", []), ("tool", ["exe"])], [], 1⟩

theorem typeWords_stripDestination_subset_dotted :
    (∀ k ∈ dottedCatalogue.vocabulary, WordLike k.toList) ∧
      typeWords (stripDestination true "[to] move tool to the [id] new folder to İd".toList)
          dottedCatalogue.vocabulary ⊆
        typeWords "[to] move tool to the [id] new folder to İd".toList
          dottedCatalogue.vocabulary ∧
      ∃ text, ["İd", "tool"].Sublist (typeWords text dottedCatalogue.vocabulary) ∧
        ["tool", "İd"].Sublist
          (typeWords (stripDestination true text) dottedCatalogue.vocabulary) := by
  have hwords : ∀ k ∈ dottedCatalogue.vocabulary, WordLike k.toList := by decide +kernel
  obtain ⟨hsubset, hswap⟩ := typeWords_stripDestination_subset hwords true
  exact ⟨hwords, hsubset _, hswap "İd" (by decide) "tool" (by decide) (by decide +kernel)⟩

/-- A keyword that starts with another character than a word character may come up behind a
phrase. -/
example : ¬ typeWords (stripDestination true "to the x folder+".toList) ["+"] ⊆
    typeWords "to the x folder+".toList ["+"] := by
  decide +kernel

end FileClerk.Command
