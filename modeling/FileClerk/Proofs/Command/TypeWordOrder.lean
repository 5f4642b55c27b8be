import Mathlib.Order.Bounds.Basic
import FileClerk.Catalogue
import FileClerk.Proofs.Command.Keyword

/-!
# Type words in order

The type words of a text are the words of the vocabulary that stand in it, each once, in the order
of their first places. Words with the same first place keep the order of the vocabulary. A list of
words with these properties is named by `TypeWordsOf`, there is one only (`TypeWordsOf.unique`), and
it is the list that is read (`typeWords_exact`).

A word that stands in a text stands at no earlier place when the text goes on behind it: an
occurrence that reaches over the end starts behind each one that does not (`FirstAt.append`). So the
words of a text keep their order in a longer one, and further words come between them.
-/

set_option autoImplicit false

namespace FileClerk.Command

open FileClerk.Text

universe u

/-! ## First places -/

/-- The number `n` is the least place at which `word` stands in `text`. -/
def FirstAt (word text : List Char) (n : Nat) : Prop := IsLeast {m | StandsAt false word text m} n

section Places

variable {word text more : List Char} {n : Nat}

theorem firstAt_iff : FirstAt word text n ↔ findStart word false text = some n := by
  rw [findStart_eq_some_iff, FirstAt, IsLeast, mem_lowerBounds]
  refine and_congr_right fun _ => ⟨fun hleast m hm hstands => ?_, fun hleast m hstands => ?_⟩
  · exact absurd (hleast m hstands) (Nat.not_le_of_gt hm)
  · exact Nat.le_of_not_gt fun hm => hleast m hm hstands

/-- A word that stands in a text has a first place. -/
theorem exists_firstAt_iff : (∃ n, FirstAt word text n) ↔ ∃ n, StandsAt false word text n := by
  rw [← findStart_isSome_iff, Option.isSome_iff_exists]
  exact exists_congr fun n => firstAt_iff

theorem StandsAt.add_length_le (h : StandsAt false word text n) :
    n + word.length ≤ text.length := by
  obtain ⟨front, back, rfl, rfl, -⟩ := h
  simp only [List.length_append]
  omega

/-- The text `more` has no part in the words that end before it. -/
theorem standsAt_append_iff (h : n + word.length ≤ text.length) :
    StandsAt false word (text ++ more) n ↔ StandsAt false word text n := by
  constructor
  · rintro ⟨front, back, heq, rfl, hfree⟩
    -- the rest of the text behind the word
    have hlen : (front ++ word).length ≤ text.length := by
      rwa [List.length_append]
    obtain ⟨back', htext⟩ : front ++ word <+: text := by
      refine List.prefix_of_prefix_length_le ?_ (List.prefix_append text more) hlen
      rw [heq, ← List.append_assoc]
      exact List.prefix_append _ back
    exact ⟨front, back', by rw [← htext, List.append_assoc], rfl, hfree⟩
  · rintro ⟨front, back, rfl, rfl, hfree⟩
    exact ⟨front, back ++ more, by simp, rfl, hfree⟩

/-- A word keeps its first place in `text ++ more`. -/
theorem FirstAt.append (h : FirstAt word text n) (more : List Char) :
    FirstAt word (text ++ more) n := by
  have hend := StandsAt.add_length_le h.1
  refine ⟨(standsAt_append_iff hend).2 h.1, fun m hm => ?_⟩
  -- an occurrence that ends in the text is one of it, and any other one starts later
  by_cases hle : m + word.length ≤ text.length
  · exact h.2 ((standsAt_append_iff hle).1 hm)
  · omega

end Places

/-! ## Lists of type words -/

/-- The word `k` has the earlier first place, or the same one and the earlier place in `vocabulary`.
-/
def ComesBefore (vocabulary : List String) (text : List Char) (k k' : String) : Prop :=
  ∃ n n', FirstAt k.toList text n ∧ FirstAt k'.toList text n' ∧
    (n < n' ∨ n = n' ∧ vocabulary.idxOf k < vocabulary.idxOf k')

/-- The list `words` has those of `vocabulary` that stand in `text`, each once, in the order
`ComesBefore`. -/
structure TypeWordsOf (vocabulary : List String) (text : List Char) (words : List String) :
    Prop where
  mem_iff : ∀ k, k ∈ words ↔ k ∈ vocabulary ∧ ∃ n, StandsAt false k.toList text n
  nodup : words.Nodup
  inOrder : words.Pairwise (ComesBefore vocabulary text)

section Lists

variable {vocabulary words words' : List String} {text : List Char}

theorem ComesBefore.asymm {k k' : String} (h : ComesBefore vocabulary text k k') :
    ¬ ComesBefore vocabulary text k' k := by
  rintro ⟨m', m, hm', hm, hbefore'⟩
  obtain ⟨n, n', hn, hn', hbefore⟩ := h
  obtain rfl : n = m := hn.unique hm
  obtain rfl : n' = m' := hn'.unique hm'
  omega

/-- The predicate `TypeWordsOf vocabulary text` holds of one list at most. -/
theorem TypeWordsOf.unique (h : TypeWordsOf vocabulary text words)
    (h' : TypeWordsOf vocabulary text words') : words = words' := by
  have hperm : words.Perm words' := (List.perm_ext_iff_of_nodup h.nodup h'.nodup).2 fun k =>
    (h.mem_iff k).trans (h'.mem_iff k).symm
  exact hperm.eq_of_pairwise (fun _ _ _ _ hbefore hafter => absurd hafter hbefore.asymm)
    h.inOrder h'.inOrder

/-- The words of a text that goes on, as far as they are words of the text, are its list. -/
theorem TypeWordsOf.filter {more : List Char} (h : TypeWordsOf vocabulary text words)
    (h' : TypeWordsOf vocabulary (text ++ more) words') :
    TypeWordsOf vocabulary text (words'.filter (· ∈ words)) where
  mem_iff := by
    intro k
    rw [List.mem_filter, decide_eq_true_eq, h.mem_iff, h'.mem_iff]
    refine and_iff_right_of_imp fun hk => ⟨hk.1, ?_⟩
    obtain ⟨n, hn⟩ := hk.2
    exact ⟨n, (standsAt_append_iff hn.add_length_le).2 hn⟩
  nodup := h'.nodup.filter _
  inOrder := by
    refine (h'.inOrder.filter _).imp_of_mem fun {k k'} hk hk' hbefore => ?_
    obtain ⟨m, m', hm, hm', hlt⟩ := hbefore
    -- the words have the same first places in the text
    have hplace : ∀ {k : String} {m : Nat}, k ∈ words'.filter (· ∈ words) →
        FirstAt k.toList (text ++ more) m → FirstAt k.toList text m := by
      intro k m hk hm
      have hmem : k ∈ words := by simpa using (List.mem_filter.1 hk).2
      obtain ⟨n, hn⟩ := exists_firstAt_iff.2 ((h.mem_iff k).1 hmem).2
      obtain rfl : m = n := hm.unique (hn.append more)
      exact hn
    exact ⟨m, m', hplace hk hm, hplace hk' hm', hlt⟩

/-- The list of `text` is a sublist of the list of `text ++ more`. -/
theorem TypeWordsOf.sublist {more : List Char} (h : TypeWordsOf vocabulary text words)
    (h' : TypeWordsOf vocabulary (text ++ more) words') : words.Sublist words' := by
  rw [h.unique (h.filter h')]
  exact List.filter_sublist

end Lists

/-! ## The type words that are read -/

section Sorts

variable {α : Type u}

/-- A sort leaves members of a list in their order that may stand either way round. -/
theorem filter_mergeSort_of_tied {le : α → α → Bool}
    (htrans : ∀ a b c, le a b = true → le b c = true → le a c = true)
    (htotal : ∀ a b, (le a b || le b a) = true) {tied : α → Bool}
    (htied : ∀ a b, tied a = true → tied b = true → le a b = true) (l : List α) :
    (l.mergeSort le).filter tied = l.filter tied := by
  have hpart : (l.filter tied).Pairwise fun a b => le a b = true :=
    List.pairwise_of_forall_mem_list fun a ha b hb =>
      htied a b (List.mem_filter.1 ha).2 (List.mem_filter.1 hb).2
  have hsub : (l.filter tied).Sublist ((l.mergeSort le).filter tied) := by
    have hsorted := List.sublist_mergeSort htrans htotal hpart List.filter_sublist
    have hboth := hsorted.filter tied
    rwa [List.filter_eq_self.2 fun a ha => (List.mem_filter.1 ha).2] at hboth
  exact (hsub.eq_of_length ((List.mergeSort_perm l le).filter tied).length_eq.symm).symm

/-- A list that is sorted by numbers keeps its order among members of one number. -/
theorem pairwise_mergeSort_of_pairwise (number : α → Nat) {R : α → α → Prop} {l : List α}
    (h : l.Pairwise R) :
    (l.mergeSort fun a b => number a ≤ number b).Pairwise fun a b =>
      number a < number b ∨ number a = number b ∧ R a b := by
  have htrans : ∀ a b c : α, decide (number a ≤ number b) = true →
      decide (number b ≤ number c) = true → decide (number a ≤ number c) = true := by
    simp only [decide_eq_true_eq]
    exact fun a b c => Nat.le_trans
  have htotal : ∀ a b : α,
      (decide (number a ≤ number b) || decide (number b ≤ number a)) = true := by
    simp only [Bool.or_eq_true, decide_eq_true_eq]
    exact fun a b => Nat.le_total (number a) (number b)
  have hsorted := List.pairwise_mergeSort htrans htotal l
  rw [List.pairwise_iff_forall_sublist] at hsorted h ⊢
  intro a b hab
  rcases Nat.lt_or_eq_of_le (of_decide_eq_true (hsorted hab)) with hlt | hsame
  · exact Or.inl hlt
  · -- members of one number stand in the list as they stand in the sorted one
    have hpair : [a, b].Sublist (l.filter fun c => number c = number a) := by
      have hfiltered := hab.filter fun c => number c = number a
      rw [filter_mergeSort_of_tied htrans htotal] at hfiltered
      · simpa [hsame] using hfiltered
      · intro c d hc hd
        exact decide_eq_true (Nat.le_of_eq
          ((of_decide_eq_true hc).trans (of_decide_eq_true hd).symm))
    exact Or.inr ⟨hsame, h (hpair.trans List.filter_sublist)⟩

end Sorts

/-- Distinct members of a list stand in the order of their places. -/
theorem pairwise_idxOf_of_nodup {l : List String} (h : l.Nodup) :
    l.Pairwise fun k k' => l.idxOf k < l.idxOf k' := by
  rw [List.pairwise_iff_getElem]
  intro i j hi hj hlt
  rwa [h.idxOf_getElem i hi, h.idxOf_getElem j hj]

section Reading

variable {vocabulary : List String}

theorem lower_of_lowered {k : String} (h : lowered k = k) : lower k.toList = k.toList := by
  rw [← String.toList_ofList (l := lower k.toList)]
  exact congrArg String.toList h

/-- What `extract_type_tokens` sorts: the words that stand in the text, each with its first place.
-/
def placedWords (text : List Char) (vocabulary : List String) : List (Nat × String) :=
  vocabulary.filterMap fun word => (keywordPosition text word).map fun position => (position, word)

theorem typeWords_eq (text : List Char) (vocabulary : List String) :
    typeWords text vocabulary =
      ((placedWords text vocabulary).mergeSort fun a b => a.1 ≤ b.1).map (·.2) := rfl

theorem firstAt_of_mem_placedWords (hlower : ∀ k ∈ vocabulary, lowered k = k) {text : List Char}
    {found : Nat × String} (h : found ∈ placedWords text vocabulary) :
    FirstAt found.2.toList text found.1 := by
  obtain ⟨k, hk, hfound⟩ := List.mem_filterMap.1 h
  obtain ⟨n, hn, rfl⟩ := Option.map_eq_some_iff.1 hfound
  rw [keywordPosition, lower_of_lowered (hlower k hk)] at hn
  exact firstAt_iff.2 hn

theorem placedWords_pairwise (hdistinct : vocabulary.Nodup) (text : List Char) :
    (placedWords text vocabulary).Pairwise fun a b =>
      vocabulary.idxOf a.2 < vocabulary.idxOf b.2 := by
  rw [placedWords, List.pairwise_filterMap]
  refine (pairwise_idxOf_of_nodup hdistinct).imp fun hlt a ha b hb => ?_
  obtain ⟨n, -, rfl⟩ := Option.map_eq_some_iff.1 ha
  obtain ⟨n', -, rfl⟩ := Option.map_eq_some_iff.1 hb
  exact hlt

/-- The list `typeWords` has `TypeWordsOf`. -/
theorem typeWords_isTypeWordsOf (hdistinct : vocabulary.Nodup)
    (hlower : ∀ k ∈ vocabulary, lowered k = k) (text : List Char) :
    TypeWordsOf vocabulary text (typeWords text vocabulary) := by
  have hinOrder : (typeWords text vocabulary).Pairwise (ComesBefore vocabulary text) := by
    rw [typeWords_eq, List.pairwise_map]
    have hsorted := pairwise_mergeSort_of_pairwise Prod.fst (placedWords_pairwise hdistinct text)
    refine hsorted.imp_of_mem fun {a b} ha hb hlt => ⟨a.1, b.1, ?_, ?_, hlt⟩
    · exact firstAt_of_mem_placedWords hlower (List.mem_mergeSort.1 ha)
    · exact firstAt_of_mem_placedWords hlower (List.mem_mergeSort.1 hb)
  refine ⟨fun k => ?_, ?_, hinOrder⟩
  · rw [mem_typeWords]
    refine and_congr_right fun hk => ?_
    rw [lower_of_lowered (hlower k hk), StartsWord]
  · -- a word does not come before itself
    refine hinOrder.imp fun hbefore heq => ?_
    exact (heq ▸ hbefore).asymm (heq ▸ hbefore)

/-- The list `typeWords text c.vocabulary` is the one with `TypeWordsOf`: the words of the catalogue
that stand in the text, each once, in the order of their first places. `text ++ more` keeps them in
this order. -/
theorem typeWords_exact {c : Catalogue} (hdistinct : c.vocabulary.Nodup)
    (hlower : ∀ k ∈ c.vocabulary, lowered k = k) (text : List Char) :
    (∀ words, TypeWordsOf c.vocabulary text words ↔ words = typeWords text c.vocabulary) ∧
      ∀ more, (typeWords text c.vocabulary).Sublist (typeWords (text ++ more) c.vocabulary) := by
  have hread := typeWords_isTypeWordsOf hdistinct hlower
  refine ⟨fun words => ⟨fun hwords => hwords.unique (hread text), ?_⟩, fun more => ?_⟩
  · rintro rfl
    exact hread text
  · exact (hread text).sublist (hread (text ++ more))

/-- Words that start with each other and words with other characters than word characters. -/
def pointedCatalogue : Catalogue :=
  ⟨[("doc", ["doc"]), ("document", ["pdf"]), ("c++", ["cpp"]), ("+", []), ("z-a", ["txt"])], [], 1⟩

theorem typeWords_exact_pointed :
    (∀ words, TypeWordsOf pointedCatalogue.vocabulary "xdoc z-a documents c++".toList words ↔
        words = typeWords "xdoc z-a documents c++".toList pointedCatalogue.vocabulary) ∧
      ∀ more, (typeWords "xdoc z-a documents c++".toList pointedCatalogue.vocabulary).Sublist
        (typeWords ("xdoc z-a documents c++".toList ++ more) pointedCatalogue.vocabulary) :=
  typeWords_exact (by decide) (by decide +kernel) _

end Reading

end FileClerk.Command
