import FileClerk.Proofs.Text.CaseClass

/-!
# Parts of texts in lower case

A part of a text has the same lower-case form in the text as by itself, but for its capital sigmas:
whether one of them ends a word may be settled by characters outside of the part. It is not when the
part itself settles the question, by the nearest characters on both sides that are not skipped
(`SigmaSettled`). So the form of a part stands in the form of every text that it is a part of
exactly if all of its capital sigmas are settled (`lower_infix_iff`).

A letter in front of the part or behind it is enough to tell: it changes the form of a sigma that is
not settled, and the form that the part has by itself cannot begin or end with that letter.
-/

set_option autoImplicit false

namespace FileClerk.Text

/-! ## Forms between other texts -/

/-- The lower-case form of a text between the reversed text `before` and the text `after`. -/
def lowerBetween (before : List Char) : List Char → List Char → List Char
  | [], _ => []
  | c :: rest, after => formAt before c (rest ++ after) ++ lowerBetween (c :: before) rest after

/-- The form of a text in two parts. -/
theorem lowerAfter_append (before s after : List Char) :
    lowerAfter before (s ++ after) =
      lowerBetween before s after ++ lowerAfter (s.reverse ++ before) after := by
  induction s generalizing before with
  | nil => rfl
  | cons c rest ih =>
      rw [List.cons_append, lowerAfter_cons, ih, lowerBetween, List.append_assoc,
        List.reverse_cons, List.append_assoc]
      rfl

/-- At the end of a text nothing stands behind. -/
theorem lowerBetween_nil_right (before s : List Char) :
    lowerBetween before s [] = lowerAfter before s := by
  have happend := lowerAfter_append before s []
  rw [List.append_nil, lowerAfter, List.append_nil] at happend
  exact happend.symm

theorem lowerBetween_append (before s t after : List Char) :
    lowerBetween before (s ++ t) after =
      lowerBetween before s (t ++ after) ++ lowerBetween (s.reverse ++ before) t after := by
  induction s generalizing before with
  | nil => rfl
  | cons c rest ih =>
      rw [List.cons_append, lowerBetween, ih, lowerBetween, List.append_assoc, List.append_assoc,
        List.reverse_cons, List.append_assoc]
      rfl

/-- Both forms of a capital sigma have one character. -/
theorem length_formAt (before before' rest rest' : List Char) (c : Char) :
    (formAt before c rest).length = (formAt before' c rest').length := by
  unfold formAt
  split
  · rfl
  · rfl

theorem formAt_ne_nil (before : List Char) (c : Char) (rest : List Char) :
    formAt before c rest ≠ [] := by
  rcases formAt_cases before c rest with ⟨-, hform | hform⟩ | ⟨-, hform⟩
  · simp [hform]
  · simp [hform]
  · rw [hform]
    exact lowerChar_ne_nil c

/-- What stands around a text does not change the length of its form. -/
theorem length_lowerBetween (before before' after after' s : List Char) :
    (lowerBetween before s after).length = (lowerBetween before' s after').length := by
  induction s generalizing before before' with
  | nil => rfl
  | cons c rest ih =>
      rw [lowerBetween, lowerBetween, List.length_append, List.length_append,
        length_formAt before before', ih]

theorem length_lowerBetween_eq (before s after : List Char) :
    (lowerBetween before s after).length = (lower s).length := by
  rw [lower, ← lowerBetween_nil_right]
  exact length_lowerBetween before [] after [] s

/-- The two forms of a capital sigma are told apart. -/
theorem endsWord_of_formAt_eq {before before' rest rest' : List Char}
    (h : formAt before 'Σ' rest = formAt before' 'Σ' rest') :
    endsWord before rest = endsWord before' rest' := by
  rw [formAt, formAt] at h
  cases hends : endsWord before rest with
  | true =>
      cases hends' : endsWord before' rest' with
      | true => rfl
      | false =>
          rw [hends, hends'] at h
          exact absurd h (by decide)
  | false =>
      cases hends' : endsWord before' rest' with
      | true =>
          rw [hends, hends'] at h
          exact absurd h (by decide)
      | false => rfl

/-! ## Settled sigmas -/

/-- The first character that is not `isCaseIgnorable`: the one that a `Σ` looks at on one side. -/
def nearest? (s : List Char) : Option Char := s.find? fun c => !isCaseIgnorable c

theorem nearest?_append (s t : List Char) : nearest? (s ++ t) = (nearest? s).or (nearest? t) :=
  List.find?_append

/-- A sigma has `endsWord` by the `nearest?` characters on both sides. -/
theorem endsWord_eq (before after : List Char) :
    endsWord before after = ((nearest? before).any isCased && !(nearest? after).any isCased) := rfl

/-- Whether a `Σ` between the reversed text `before` and the text `after` ends a word is settled,
whatever stands around the two. If nothing counts in front, a letter counts behind; if nothing
counts behind, what counts in front is no letter. -/
structure SigmaSettled (before after : List Char) : Prop where
  front : nearest? before = none → (nearest? after).any isCased = true
  back : nearest? after = none → (nearest? before).any (fun c => !isCased c) = true

section Settled

variable {before after : List Char}

theorem SigmaSettled.endsWord_eq (h : SigmaSettled before after) (left right : List Char) :
    endsWord (before ++ left) (after ++ right) = endsWord before after := by
  rw [Text.endsWord_eq, Text.endsWord_eq, nearest?_append, nearest?_append]
  cases hbefore : nearest? before with
  | none =>
      -- no word ends in front of a letter
      have hafter := h.front hbefore
      cases hnearest : nearest? after with
      | none =>
          rw [hnearest] at hafter
          cases hafter
      | some d =>
          rw [hnearest] at hafter
          simp [hafter]
  | some c =>
      cases hafter : nearest? after with
      | none =>
          -- no word ends behind what is no letter
          have hc : isCased c = false := by
            simpa [hbefore] using h.back hafter
          simp [hc]
      | some d => rfl

/-- A letter in front or behind changes the form of a sigma that is not settled, where nothing else
counts. -/
theorem endsWord_ne_of_not_settled (h : ¬SigmaSettled before after) :
    nearest? before = none ∧ endsWord (before ++ ['A']) after ≠ endsWord before after ∨
      nearest? after = none ∧ endsWord before (after ++ ['A']) ≠ endsWord before after := by
  have hletter : nearest? ['A'] = some 'A' ∧ isCased 'A' = true := by decide +kernel
  rw [endsWord_eq, endsWord_eq, endsWord_eq, nearest?_append, nearest?_append, hletter.1]
  cases hbefore : nearest? before with
  | none =>
      -- no letter counts in front, and with one there the sigma would end a word
      refine Or.inl ⟨rfl, ?_⟩
      have hafter : (nearest? after).any isCased = false := by
        by_contra hcased
        rw [Bool.not_eq_false] at hcased
        refine h ⟨fun _ => hcased, fun hnone => ?_⟩
        rw [hnone] at hcased
        cases hcased
      simp [hafter, hletter.2]
  | some c =>
      cases hafter : nearest? after with
      | none =>
          refine Or.inr ⟨rfl, ?_⟩
          have hc : isCased c = true := by
            by_contra hcased
            rw [Bool.not_eq_true] at hcased
            refine h ⟨fun hnone => ?_, fun _ => ?_⟩
            · rw [hbefore] at hnone
              cases hnone
            · rw [hbefore]
              simpa using hcased
          simp [hc, hletter.2]
      | some d =>
          refine absurd ⟨fun hnone => ?_, fun hnone => ?_⟩ h
          · rw [hbefore] at hnone
            cases hnone
          · rw [hafter] at hnone
            cases hnone

end Settled

/-! ## Parts -/

/-- Each `Σ` of the text is `SigmaSettled` by the rest of the text. -/
def SigmasSettled (t : List Char) : Prop :=
  ∀ before after, t = before ++ 'Σ' :: after → SigmaSettled before.reverse after

section Parts

variable {s t before after : List Char}

/-- Settled sigmas have the same forms between other texts. -/
theorem SigmasSettled.lowerBetween_eq (h : SigmasSettled t) (left right : List Char) :
    lowerBetween left t right = lower t := by
  -- the induction is on what is left of the text
  have hrest : ∀ front rest, t = front ++ rest →
      lowerBetween (front.reverse ++ left) rest right = lowerAfter front.reverse rest := by
    intro front rest
    induction rest generalizing front with
    | nil =>
        intro _
        rfl
    | cons c rest ih =>
        intro ht
        have hform : formAt (front.reverse ++ left) c (rest ++ right) =
            formAt front.reverse c rest := by
          by_cases hsigma : c = 'Σ'
          · subst hsigma
            rw [formAt, formAt, (h front rest ht).endsWord_eq]
          · rw [formAt, formAt, if_neg (by simpa using hsigma), if_neg (by simpa using hsigma)]
        have hnext := ih (front ++ [c]) (by rw [ht, List.append_assoc]; rfl)
        rw [List.reverse_append, List.reverse_singleton] at hnext
        rw [lowerBetween, lowerAfter_cons, hform]
        exact congrArg _ hnext
  exact hrest [] t rfl

/-- The form `lower t` of a part with settled sigmas stands in `lower s`. -/
theorem SigmasSettled.lower_infix (h : SigmasSettled t) (ht : t <:+: s) : lower t <:+: lower s := by
  obtain ⟨left, right, rfl⟩ := ht
  refine ⟨lowerBetween [] left (t ++ right), lowerAfter (t.reverse ++ left.reverse) right, ?_⟩
  have hparts : lower (left ++ (t ++ right)) = lowerBetween [] left (t ++ right) ++
      (lowerBetween left.reverse t right ++ lowerAfter (t.reverse ++ left.reverse) right) := by
    rw [lower, lowerAfter_append, List.append_nil, lowerAfter_append]
  rw [List.append_assoc left, hparts, h.lowerBetween_eq, List.append_assoc]

/-- A skipped character and a sigma have no form with the letter in it. -/
theorem notMem_formAt {c : Char} (hc : isCaseIgnorable c = true ∨ c = 'Σ')
    (before rest : List Char) : 'a' ∉ formAt before c rest := by
  intro hmem
  rcases formAt_cases before c rest with ⟨-, hform | hform⟩ | ⟨hsigma, hform⟩
  · rw [hform] at hmem
    exact absurd hmem (by decide)
  · rw [hform] at hmem
    exact absurd hmem (by decide)
  · rw [hform] at hmem
    have hskipped := hc.resolve_right hsigma
    by_cases hascii : c.toNat < 128
    · revert hskipped hmem
      exact forall_ascii (P := fun c => 'a' ∈ lowerChar c → ¬isCaseIgnorable c = true)
        (by decide +kernel) hascii
    · exact absurd (toNat_of_mem_lowerChar hascii hmem (by decide)) (by decide)

/-- A sigma with another form gives the text another form. -/
theorem lowerBetween_ne {left right : List Char}
    (hends : endsWord (before.reverse ++ left) (after ++ right) ≠ endsWord before.reverse after) :
    lowerBetween left (before ++ 'Σ' :: after) right ≠ lower (before ++ 'Σ' :: after) := by
  rw [lower, ← lowerBetween_nil_right, lowerBetween_append, lowerBetween_append, List.append_nil,
    List.append_nil]
  intro heq
  -- what stands in front of the sigma has one length, whatever its form is
  have hrest := (List.append_inj heq (length_lowerBetween _ _ _ _ _)).2
  rw [lowerBetween, lowerBetween, List.append_nil] at hrest
  have hform := (List.append_inj hrest (length_formAt _ _ _ _ _)).1
  exact hends (endsWord_of_formAt_eq hform)

/-- A letter in front of a text changes the form of a sigma, so that the form that the text has by
itself is found no more. -/
theorem not_infix_letter_front (hnone : nearest? before.reverse = none)
    (hends : endsWord (before.reverse ++ ['A']) after ≠ endsWord before.reverse after) :
    ¬lower (before ++ 'Σ' :: after) <:+: lower ('A' :: (before ++ 'Σ' :: after)) := by
  have hne : lowerBetween ['A'] (before ++ 'Σ' :: after) [] ≠ lower (before ++ 'Σ' :: after) :=
    lowerBetween_ne (by rwa [List.append_nil])
  have hlower : lower ('A' :: (before ++ 'Σ' :: after)) =
      'a' :: lowerBetween ['A'] (before ++ 'Σ' :: after) [] := by
    rw [lower, lowerAfter_cons, lowerBetween_nil_right]
    rfl
  rw [hlower, List.infix_cons_iff]
  rintro (hstart | hrest)
  · -- the form of the text begins with the letter
    obtain ⟨c, rest, htext, hc⟩ : ∃ c rest, before ++ 'Σ' :: after = c :: rest ∧
        (isCaseIgnorable c = true ∨ c = 'Σ') := by
      cases before with
      | nil => exact ⟨'Σ', after, rfl, Or.inr rfl⟩
      | cons c rest =>
          have hskipped := List.find?_eq_none.1 hnone c (by simp)
          exact ⟨c, _, rfl, Or.inl (by simpa using hskipped)⟩
    rw [htext, lower, lowerAfter_cons] at hstart
    obtain ⟨d, form, hform⟩ := List.exists_cons_of_ne_nil (formAt_ne_nil [] c rest)
    rw [hform, List.cons_append, List.cons_prefix_cons] at hstart
    apply notMem_formAt hc [] rest
    rw [hform, hstart.1]
    exact List.mem_cons_self
  · exact hne (hrest.eq_of_length (length_lowerBetween_eq _ _ _).symm).symm

/-- So does a letter behind a text. -/
theorem not_infix_letter_back (hnone : nearest? after = none)
    (hends : endsWord before.reverse (after ++ ['A']) ≠ endsWord before.reverse after) :
    ¬lower (before ++ 'Σ' :: after) <:+: lower ((before ++ 'Σ' :: after) ++ ['A']) := by
  have hne : lowerBetween [] (before ++ 'Σ' :: after) ['A'] ≠ lower (before ++ 'Σ' :: after) :=
    lowerBetween_ne (by rwa [List.append_nil])
  have hlower : lower ((before ++ 'Σ' :: after) ++ ['A']) =
      lowerBetween [] (before ++ 'Σ' :: after) ['A'] ++ ['a'] := by
    rw [lower, lowerAfter_append]
    rfl
  rw [hlower, List.infix_concat_iff]
  rintro (hend | hrest)
  · -- the form of the text ends with the letter
    obtain ⟨front, c, htext, hc⟩ : ∃ front c, before ++ 'Σ' :: after = front ++ [c] ∧
        (isCaseIgnorable c = true ∨ c = 'Σ') := by
      rcases List.eq_nil_or_concat after with rfl | ⟨rest, c, rfl⟩
      · exact ⟨before, 'Σ', rfl, Or.inr rfl⟩
      · have hskipped := List.find?_eq_none.1 hnone c (by simp)
        exact ⟨before ++ 'Σ' :: rest, c, by simp, Or.inl (by simpa using hskipped)⟩
    rw [htext, lower, lowerAfter_append, lowerAfter_cons, lowerAfter, List.append_nil] at hend
    obtain ⟨form, d, hform⟩ := (List.eq_nil_or_concat _).resolve_left
      (formAt_ne_nil (front.reverse ++ []) c [])
    obtain ⟨front', hfront⟩ := hend
    rw [hform, List.concat_eq_append, ← List.append_assoc, ← List.append_assoc] at hfront
    have hd : [d] = ['a'] := (List.append_inj' hfront rfl).2
    apply notMem_formAt hc (front.reverse ++ []) []
    rw [hform, List.concat_eq_append, hd]
    exact List.mem_append_right _ List.mem_cons_self
  · exact hne (hrest.eq_of_length (length_lowerBetween_eq _ _ _).symm).symm

/-- The form `lower t` stands in `lower s` for all texts `s` that have `t` as a part exactly if
`SigmasSettled t`. -/
theorem lower_infix_iff : (∀ s, t <:+: s → lower t <:+: lower s) ↔ SigmasSettled t := by
  constructor
  · intro h before after ht
    by_contra hsettled
    subst ht
    rcases endsWord_ne_of_not_settled hsettled with ⟨hnone, hends⟩ | ⟨hnone, hends⟩
    · exact not_infix_letter_front hnone hends (h _ (List.suffix_cons 'A' _).isInfix)
    · exact not_infix_letter_back hnone hends (h _ (List.prefix_append _ ['A']).isInfix)
  · intro h s hs
    exact h.lower_infix hs

end Parts

end FileClerk.Text
