import Mathlib.Data.List.DropRight
import FileClerk.Proofs.Text.CharClass
import FileClerk.Record

/-!
# Settled texts and separated texts

A character is settled when it is its own lower-case form wherever it stands. Lower-case forms
consist of settled characters (`settled_of_mem_lower`), so a lower-case form is its own
(`lower_lower`), and so is the normal form of an extension, which is a lower-case form without its
leading dots (`normalExtension_normalExtension`).

The form of a capital sigma depends on its neighbours, but not beyond a separator: a character that
has no letter case and is not skipped. Texts on both sides of a separator are put into lower case
each by itself (`lower_append_cons`).
-/

set_option autoImplicit false

namespace FileClerk.Text

/-! ## Settled characters -/

/-- The character is its own `lowerChar`, and it is not `Σ`, whose form depends on its neighbours.
-/
def Settled (c : Char) : Prop := c ≠ 'Σ' ∧ lowerChar c = [c]

/-- No code point that a run leads to is moved by another run: it lies outside of that run or
between its steps. -/
def CaseRun.isLast (runs : List CaseRun) (r : CaseRun) : Bool :=
  runs.all fun s => liesOutside s.first s.last r.image ||
    s.step == 2 && (r.step == 2 || r.first == r.last) &&
      ((r.first : Int) + r.shift - s.first) % 2 == 1

/-- No run of `lowerRuns` leads into another one. -/
theorem lowerRuns_isLast : lowerRuns.all (CaseRun.isLast lowerRuns) = true := by
  -- each run is compared with each other one, and only the kernel is fast enough
  decide +kernel

/-- The runs of lower-case forms lead to code points that have no form of several characters and,
but for one letter, lie beyond ASCII. -/
theorem image_lowerRuns : ∀ r ∈ lowerRuns, r.image = (107, 107) ∨
    (128 ≤ r.image.1 ∧ liesOutside 304 304 r.image = true ∧
      liesOutside 931 931 r.image = true) := by
  decide +kernel

theorem le_first_lowerRuns : ∀ r ∈ lowerRuns, 128 ≤ r.first := by
  decide +kernel

theorem moveBy_eq_self {runs : List CaseRun} {n : Nat} (h : ∀ r ∈ runs, r.covers n = false) :
    moveBy runs n = n := by
  induction runs with
  | nil => rfl
  | cons r rest ih =>
      rw [moveBy, h r List.mem_cons_self]
      exact ih fun s hs => h s (List.mem_cons_of_mem _ hs)

/-- A mapping by `lowerRuns` is idempotent. -/
theorem moveBy_moveBy (n : Nat) :
    moveBy lowerRuns (moveBy lowerRuns n) = moveBy lowerRuns n := by
  rcases moveBy_cases lowerRuns n with hself | ⟨r, hr, hcovers, hmove⟩
  · rw [hself, hself]
  · apply moveBy_eq_self
    intro s hs
    obtain ⟨hfirst, hlast, hstep⟩ := (r.covers_iff n).1 hcovers
    have hlastRun := List.all_eq_true.1 (List.all_eq_true.1 lowerRuns_isLast r hr) s hs
    simp only [liesOutside, CaseRun.image, Bool.or_eq_true, Bool.and_eq_true, Nat.blt_eq,
      beq_iff_eq] at hlastRun
    rw [Bool.eq_false_iff]
    intro hagain
    obtain ⟨hfirst', hlast', hstep'⟩ := (s.covers_iff _).1 hagain
    have hpos := le_first_lowerRuns s hs
    rcases hlastRun with houtside | ⟨⟨hstep₂, heven⟩, hodd⟩
    · omega
    · -- the steps of the two runs never meet
      rw [hstep₂] at hstep'
      rcases heven with hstep₁ | hsingle
      · rw [hstep₁] at hstep
        omega
      · omega

instance (c : Char) : Decidable (Settled c) := inferInstanceAs (Decidable (_ ∧ _))

/-- A character beyond ASCII is settled if no run moves it and it has no longer form. -/
theorem settled_of_moveBy {d : Char} (hascii : ¬ d.toNat < 128) (hlong : d.toNat ≠ 304)
    (hsigma : d.toNat ≠ 931) (hmove : moveBy lowerRuns d.toNat = d.toNat) : Settled d := by
  refine ⟨?_, ?_⟩
  · rintro rfl
    exact hsigma rfl
  · have hnone : expansionOf lowerExpansions d.toNat = none := by
      simp [lowerExpansions, expansionOf, hlong.symm]
    rw [lowerChar, if_neg hascii, mapCase, hnone]
    simp only [hmove, Char.ofNat_toNat]

/-- The characters of `lowerChar c` are `Settled`. -/
theorem settled_of_mem_lowerChar {c d : Char} (h : d ∈ lowerChar c) : Settled d := by
  have hcode : ∀ {n : Nat}, d.toNat = n → Settled (Char.ofNat n) → Settled d := by
    rintro n rfl hsettled
    rwa [Char.ofNat_toNat] at hsettled
  by_cases hascii : c.toNat < 128
  · have hall : ((lowerChar c).all fun d => decide (Settled d)) = true :=
      forall_ascii (P := fun c => ((lowerChar c).all fun d => decide (Settled d)) = true)
        (by decide) hascii
    simpa using List.all_eq_true.1 hall d h
  · obtain hplace | hplace | hplace | ⟨hlong, hplace⟩ := mem_lowerChar_cases hascii h
    · exact hcode hplace (by decide)
    · exact hcode hplace (by decide +kernel)
    · exact hcode hplace (by decide)
    · have hlast : moveBy lowerRuns d.toNat = d.toNat := by
        rw [hplace, moveBy_moveBy]
      rcases moveBy_cases lowerRuns c.toNat with hself | ⟨r, hr, hcovers, hmove⟩
      · -- the character stays where it is, and a capital sigma would move
        have hsame : d.toNat = c.toNat := hplace.trans hself
        refine settled_of_moveBy (hsame ▸ hascii) (hsame ▸ hlong) ?_ hlast
        intro hsigma
        rw [hsigma] at hlast
        exact absurd hlast (by decide +kernel)
      · obtain ⟨hfirst, hlast', -⟩ := (r.covers_iff c.toNat).1 hcovers
        rcases image_lowerRuns r hr with himage | ⟨hpos, hlong', hsigma⟩
        · -- the one letter of ASCII
          simp only [CaseRun.image, Prod.mk.injEq] at himage
          exact hcode (n := 107) (by omega) (by decide)
        · simp only [CaseRun.image, liesOutside, Bool.or_eq_true, Nat.blt_eq]
            at hpos hlong' hsigma
          exact settled_of_moveBy (by omega) (by omega) (by omega) hlast

/-- Few characters beyond ASCII have a form in ASCII: one of two letters, or the character zero for
a number that is no code point. -/
theorem toNat_of_mem_lowerChar {c d : Char} (hascii : ¬ c.toNat < 128) (hd : d ∈ lowerChar c)
    (h : d.toNat < 128) : d.toNat = 105 ∨ d.toNat = 107 ∨ d.toNat = 0 := by
  obtain hplace | hplace | hplace | ⟨-, hplace⟩ := mem_lowerChar_cases hascii hd
  · exact Or.inl hplace
  · omega
  · exact Or.inr (Or.inr hplace)
  · rcases moveBy_cases lowerRuns c.toNat with hself | ⟨r, hr, hcovers, hmove⟩
    · omega
    · obtain ⟨hfirst, hlast, -⟩ := (r.covers_iff c.toNat).1 hcovers
      rcases image_lowerRuns r hr with himage | ⟨hpos, -⟩
      · simp only [CaseRun.image, Prod.mk.injEq] at himage
        omega
      · simp only [CaseRun.image] at hpos
        omega

/-! ## Settled texts -/

/-- Lower-case forms consist of settled characters, whatever stands before them. -/
theorem settled_of_mem_lowerAfter {before s : List Char} {d : Char}
    (h : d ∈ lowerAfter before s) : Settled d := by
  induction s generalizing before with
  | nil => cases h
  | cons c rest ih =>
      rw [lowerAfter, List.mem_append] at h
      rcases h with hhead | hrest
      · split at hhead
        · -- both small forms of a capital sigma are settled
          rw [List.mem_singleton] at hhead
          rw [hhead]
          split
          · decide +kernel
          · decide +kernel
        · exact settled_of_mem_lowerChar hhead
      · exact ih hrest

theorem settled_of_mem_lower {s : List Char} {d : Char} (h : d ∈ lower s) : Settled d :=
  settled_of_mem_lowerAfter h

theorem lowerAfter_eq_self {s : List Char} (h : ∀ c ∈ s, Settled c) (before : List Char) :
    lowerAfter before s = s := by
  induction s generalizing before with
  | nil => rfl
  | cons c rest ih =>
      obtain ⟨hsigma, hself⟩ := h c List.mem_cons_self
      rw [lowerAfter, if_neg (by simpa using hsigma), hself,
        ih (fun d hd => h d (List.mem_cons_of_mem _ hd))]
      rfl

/-- A text of `Settled` characters is its own `lower`. -/
theorem lower_eq_self {s : List Char} (h : ∀ c ∈ s, Settled c) : lower s = s :=
  lowerAfter_eq_self h []

/-- The function `lower` is idempotent. -/
theorem lower_lower (s : List Char) : lower (lower s) = lower s :=
  lower_eq_self fun _ => settled_of_mem_lower

/-! ## Separated texts -/

/-- The character is neither `isCased` nor `isCaseIgnorable`, so no `Σ` looks past it. -/
def Separator (c : Char) : Prop := isCaseIgnorable c = false ∧ isCased c = false

instance (c : Char) : Decidable (Separator c) := inferInstanceAs (Decidable (_ ∧ _))

/-- What stands behind a separator does not count. -/
theorem meetsCased_append_cons {c : Char} (hc : Separator c) (front back : List Char) :
    meetsCased (front ++ c :: back) = meetsCased front := by
  unfold meetsCased
  rw [List.find?_append]
  cases hfind : front.find? fun d => !isCaseIgnorable d with
  | none => simp [hc.1, hc.2]
  | some d => simp

/-- What stands before a separator does not count for the text behind it. -/
theorem lowerAfter_append_cons {c : Char} (hc : Separator c) (front back s : List Char) :
    lowerAfter (front ++ c :: back) s = lowerAfter front s := by
  induction s generalizing front with
  | nil => rfl
  | cons d rest ih =>
      have ih' := ih (d :: front)
      rw [List.cons_append] at ih'
      rw [lowerAfter, lowerAfter, ih', endsWord, endsWord, meetsCased_append_cons hc]

theorem lowerAfter_append_separator {c : Char} (hc : Separator c) (before front back : List Char) :
    lowerAfter before (front ++ c :: back) =
      lowerAfter before front ++ (lowerChar c ++ lower back) := by
  have hsigma : ¬ (c == 'Σ') = true := by
    rw [beq_iff_eq]
    rintro rfl
    exact absurd hc (by decide +kernel)
  induction front generalizing before with
  | nil =>
      have hback : lowerAfter (c :: before) back = lower back :=
        lowerAfter_append_cons hc [] before back
      simp only [List.nil_append, lowerAfter, if_neg hsigma, hback]
  | cons d rest ih =>
      rw [List.cons_append, lowerAfter, ih, lowerAfter, endsWord, endsWord,
        meetsCased_append_cons hc, List.append_assoc]

/-- The texts on both sides of a settled `Separator` are put into lower case each by itself. -/
theorem lower_append_cons {c : Char} (hc : Separator c) (hself : Settled c)
    (front back : List Char) : lower (front ++ c :: back) = lower front ++ c :: lower back := by
  rw [lower, lowerAfter_append_separator hc, hself.2]
  rfl

/-- Blanks are settled separators. -/
theorem separator_of_isBlank {c : Char} (h : isBlank c = true) : Separator c ∧ Settled c :=
  forall_blank (P := fun c => Separator c ∧ Settled c) (by decide +kernel) h

theorem lower_append_space (front back : List Char) :
    lower (front ++ ' ' :: back) = lower front ++ ' ' :: lower back := by
  obtain ⟨hseparator, hsettled⟩ := separator_of_isBlank (c := ' ') (by decide)
  exact lower_append_cons hseparator hsettled front back

/-- Blanks at the end stay as they are. -/
theorem lower_append_blanks {gap : List Char} (hgap : Blanks gap) (s : List Char) :
    lower (s ++ gap) = lower s ++ gap := by
  cases gap with
  | nil => rw [List.append_nil, List.append_nil]
  | cons c gap =>
      obtain ⟨hseparator, hsettled⟩ := separator_of_isBlank (hgap c List.mem_cons_self)
      have hrest : lower gap = gap := lower_eq_self fun d hd =>
        (separator_of_isBlank (hgap d (List.mem_cons_of_mem _ hd))).2
      rw [lower_append_cons hseparator hsettled, hrest]

/-- Blanks at the start stay as they are. -/
theorem lower_blanks_append {gap : List Char} (hgap : Blanks gap) (s : List Char) :
    lower (gap ++ s) = gap ++ lower s := by
  induction gap with
  | nil => rfl
  | cons c gap ih =>
      obtain ⟨hseparator, hsettled⟩ := separator_of_isBlank (hgap c List.mem_cons_self)
      have hfirst := lower_append_cons hseparator hsettled [] (gap ++ s)
      rw [List.cons_append, List.cons_append, ← ih fun d hd => hgap d (List.mem_cons_of_mem _ hd)]
      exact hfirst

end FileClerk.Text

namespace FileClerk

open FileClerk.Text

/-! ## Extensions in normal form -/

theorem lowered_lowered (s : String) : lowered (lowered s) = lowered s := by
  simp only [lowered, String.toList_ofList, lower_lower]

/-- An extension in normal form is in lower case. -/
theorem lowered_normalExtension (s : String) :
    lowered (normalExtension s) = normalExtension s := by
  have hsettled : ∀ c ∈ (lower s.toList).dropWhile (· == '.'), Settled c :=
    fun c hc => settled_of_mem_lower ((List.dropWhile_suffix _).subset hc)
  simp only [lowered, normalExtension, String.toList_ofList, lower_eq_self hsettled]

/-- The function `normalExtension` is idempotent. -/
theorem normalExtension_normalExtension (s : String) :
    normalExtension (normalExtension s) = normalExtension s := by
  have hlower := congrArg String.toList (lowered_normalExtension s)
  rw [lowered, String.toList_ofList] at hlower
  calc normalExtension (normalExtension s)
      = String.ofList ((lower (normalExtension s).toList).dropWhile (· == '.')) := rfl
    _ = String.ofList ((normalExtension s).toList.dropWhile (· == '.')) := by rw [hlower]
    _ = normalExtension s := by
        simp only [normalExtension, String.toList_ofList, List.dropWhile_idempotent]

end FileClerk
