import Mathlib.Data.List.Forall2
import FileClerk.Proofs.Text.CaseClass

/-!
# Texts in upper case

A text has a name of ASCII characters as its upper-case form if it spells the name one character by
one, each with the letter that stands in the name as its capital (`upper_eq_iff`). Besides the two
cases of an ASCII letter, the dotless i and the long s have capitals in ASCII. A few characters have
capital forms of several letters, as ligatures do, so the name must not hold any of these forms.
-/

set_option autoImplicit false

namespace FileClerk.Text

/-! ## Capitals -/

/-- The letter is the capital of `c`: of a letter in either case, of `ı` or of `ſ`. -/
def IsCapitalOf (letter c : Char) : Prop :=
  c.toUpper = letter ∨ letter = 'I' ∧ c = 'ı' ∨ letter = 'S' ∧ c = 'ſ'

/-- Beyond ASCII the rule for ASCII letters gives no capital. -/
theorem toUpper_eq_self {c : Char} (h : ¬ c.toNat < 128) : c.toUpper = c := by
  unfold Char.toUpper
  rw [dif_neg]
  rintro ⟨-, hle⟩
  have hnat : c.toNat ≤ 'z'.toNat := hle
  exact h (Nat.lt_of_le_of_lt hnat (by decide))

/-- The runs `upperRuns` lead from two characters to letters of ASCII, or beyond ASCII. -/
theorem source_upperRuns : ∀ r ∈ upperRuns,
    r.image = ('I'.toNat, 'I'.toNat) ∧ r.source = ('ı'.toNat, 'ı'.toNat) ∨
      r.image = ('S'.toNat, 'S'.toNat) ∧ r.source = ('ſ'.toNat, 'ſ'.toNat) ∨
      128 ≤ r.image.1 := by
  decide +kernel

/-- A character is known by its place in a run that covers this place only. -/
theorem eq_of_covers {r : CaseRun} {letter c d : Char} (hcovers : r.covers c.toNat = true)
    (hd : d.toNat = ((c.toNat : Int) + r.shift).toNat)
    (himage : r.image = (letter.toNat, letter.toNat)) {e : Char}
    (hsource : r.source = (e.toNat, e.toNat)) : d = letter ∧ c = e := by
  obtain ⟨hleft, hright⟩ := CaseRun.image_of_covers hcovers
  obtain ⟨hfirst, hlast, -⟩ := (r.covers_iff c.toNat).1 hcovers
  rw [← hd, himage] at hleft hright
  simp only [CaseRun.source, Prod.mk.injEq] at hsource
  rw [hsource.1] at hfirst
  rw [hsource.2] at hlast
  exact ⟨Char.toNat_inj.1 (Nat.le_antisymm hright hleft),
    Char.toNat_inj.1 (Nat.le_antisymm hlast hfirst)⟩

/-- An upper-case form is one of the listed forms of several characters, or it is one character. -/
theorem upperChar_cases (c : Char) :
    (∃ e ∈ upperExpansions, upperChar c = e.2.map Char.ofNat) ∨ ∃ d, upperChar c = [d] := by
  by_cases hascii : c.toNat < 128
  · rw [upperChar, if_pos hascii]
    exact Or.inr ⟨_, rfl⟩
  · rw [upperChar, if_neg hascii]
    rcases mapCase_cases validImages_upperRuns upperExpansions c with
      ⟨image, hmem, heq⟩ | ⟨d, heq, -⟩
    · exact Or.inl ⟨_, hmem, heq⟩
    · exact Or.inr ⟨d, heq⟩

/-- The form `upperChar c` is one ASCII character exactly if this `IsCapitalOf` it. -/
theorem upperChar_eq_singleton_iff {letter : Char} (hletter : letter.toNat < 128) (c : Char) :
    upperChar c = [letter] ↔ IsCapitalOf letter c := by
  by_cases hascii : c.toNat < 128
  · rw [upperChar, if_pos hascii, List.singleton_inj]
    constructor
    · exact Or.inl
    · rintro (hupper | ⟨-, rfl⟩ | ⟨-, rfl⟩)
      · exact hupper
      · exact absurd hascii (by decide)
      · exact absurd hascii (by decide)
  · constructor
    · intro hform
      rw [upperChar, if_neg hascii] at hform
      rcases mapCase_cases validImages_upperRuns upperExpansions c with
        ⟨image, hmem, heq⟩ | ⟨d, heq, hplace⟩
      · -- the listed forms have more than one character
        have hlong : ∀ e ∈ upperExpansions, 1 < e.2.length := by decide +kernel
        have hlength : image.length = 1 := by
          rw [← List.length_map Char.ofNat, ← heq, hform]
          rfl
        exact absurd hlength (Nat.ne_of_gt (hlong _ hmem))
      · rw [heq, List.singleton_inj] at hform
        subst hform
        rcases hplace with rfl | ⟨r, hr, hcovers, hplace⟩
        · exact absurd hletter hascii
        · rcases source_upperRuns r hr with ⟨himage, hsource⟩ | ⟨himage, hsource⟩ | himage
          · exact Or.inr (Or.inl (eq_of_covers hcovers hplace himage hsource))
          · exact Or.inr (Or.inr (eq_of_covers hcovers hplace himage hsource))
          · -- the other runs lead beyond ASCII
            have hleft := (CaseRun.image_of_covers hcovers).1
            omega
    · rintro (hupper | ⟨rfl, rfl⟩ | ⟨rfl, rfl⟩)
      · rw [← hupper, toUpper_eq_self hascii] at hletter
        exact absurd hletter hascii
      · decide +kernel
      · decide +kernel

/-! ## Spellings -/

/-- A form that is in ASCII and holds no listed form of several characters is made of capitals. -/
theorem forall₂_of_upper {s : List Char} (hascii : ∀ d ∈ upper s, d.toNat < 128)
    (hshort : ∀ e ∈ upperExpansions, ¬e.2.map Char.ofNat <:+: upper s) :
    List.Forall₂ IsCapitalOf (upper s) s := by
  induction s with
  | nil => exact List.Forall₂.nil
  | cons c rest ih =>
      have hupper : upper (c :: rest) = upperChar c ++ upper rest := List.flatMap_cons
      rw [hupper] at hascii hshort ⊢
      rcases upperChar_cases c with ⟨e, he, hform⟩ | ⟨d, hform⟩
      · rw [hform] at hshort
        exact absurd (List.prefix_append _ _).isInfix (hshort e he)
      · rw [hform] at hascii hshort ⊢
        have hd := (upperChar_eq_singleton_iff (hascii d List.mem_cons_self) c).1 hform
        refine List.Forall₂.cons hd (ih ?_ ?_)
        · intro d' hd'
          exact hascii d' (List.mem_cons_of_mem d hd')
        · intro e he hpart
          exact hshort e he (hpart.trans (List.suffix_cons d _).isInfix)

/-- What capitals are put together to is the upper-case form. -/
theorem upper_of_forall₂ {name s : List Char} (hascii : ∀ letter ∈ name, letter.toNat < 128)
    (h : List.Forall₂ IsCapitalOf name s) : upper s = name := by
  induction h with
  | nil => rfl
  | @cons letter c name rest hfirst _ ih =>
      rw [List.forall_mem_cons] at hascii
      have hupper : upper (c :: rest) = upperChar c ++ upper rest := List.flatMap_cons
      rw [hupper, (upperChar_eq_singleton_iff hascii.1 c).2 hfirst, ih hascii.2]
      rfl

/-- A name in ASCII without a form of several characters is `upper s` exactly for the texts that
spell it. -/
theorem upper_eq_iff {name : List Char} (hascii : ∀ letter ∈ name, letter.toNat < 128)
    (hshort : ∀ e ∈ upperExpansions, ¬e.2.map Char.ofNat <:+: name) (s : List Char) :
    upper s = name ↔ List.Forall₂ IsCapitalOf name s := by
  constructor
  · rintro rfl
    exact forall₂_of_upper hascii hshort
  · exact upper_of_forall₂ hascii

end FileClerk.Text
