import FileClerk.Proofs.Command.Keyword
import FileClerk.Proofs.Command.Opener
import FileClerk.Proofs.Text.Lower

/-!
# Commands in several parts

A command that is put together from parts with spaces between them is put into lower case part by
part (`lower_intercalate`), and it has the keywords of its parts (`startsWord_intercalate`,
`containsWord_intercalate`). So the order of the parts does not count for keywords. A reader whose
readings start with other words passes over the words in front
(`OpensWith.firstReading?_intercalate`).
-/

set_option autoImplicit false

namespace FileClerk.Command

open FileClerk.Text

/-! ## Parts -/

theorem intercalate_cons {parts : List (List Char)} (h : parts ≠ []) (first : List Char) :
    [' '].intercalate (first :: parts) = first ++ ' ' :: [' '].intercalate parts := by
  obtain ⟨second, parts, rfl⟩ := List.exists_cons_of_ne_nil h
  rw [List.intercalate_cons_cons, List.append_assoc]
  rfl

/-- The function `lower` acts on the parts of a command each by itself. -/
theorem lower_intercalate (parts : List (List Char)) :
    lower ([' '].intercalate parts) = [' '].intercalate (parts.map lower) := by
  induction parts with
  | nil => rfl
  | cons first parts ih =>
      by_cases hparts : parts = []
      · rw [hparts, List.intercalate_singleton, List.map_singleton, List.intercalate_singleton]
      · rw [intercalate_cons hparts, lower_append_space, ih, List.map_cons,
          intercalate_cons (by simpa using hparts)]

/-- Each part is a stretch of the whole. -/
theorem infix_intercalate {part : List Char} {parts : List (List Char)} (h : part ∈ parts) :
    part <:+: [' '].intercalate parts := by
  induction parts with
  | nil => cases h
  | cons first parts ih =>
      by_cases hparts : parts = []
      · obtain rfl := hparts
        obtain rfl := List.mem_singleton.1 h
        have hself : [' '].intercalate [part] = part := List.intercalate_singleton
        exact hself.symm ▸ List.infix_rfl
      · rw [intercalate_cons hparts]
        rcases List.mem_cons.1 h with rfl | hrest
        · exact (List.prefix_append _ _).isInfix
        · exact (ih hrest).trans ((List.suffix_cons _ _).trans (List.suffix_append _ _)).isInfix

/-- What holds of a space and of all characters of the parts holds of all characters of the
whole. -/
theorem forall_mem_intercalate {P : Char → Prop} (hspace : P ' ') {parts : List (List Char)}
    (h : ∀ part ∈ parts, ∀ c ∈ part, P c) : ∀ c ∈ [' '].intercalate parts, P c := by
  induction parts with
  | nil => exact fun c hc => (List.not_mem_nil hc).elim
  | cons first parts ih =>
      obtain ⟨hfirst, hrest⟩ := List.forall_mem_cons.1 h
      by_cases hparts : parts = []
      · rw [hparts, List.intercalate_singleton]
        exact hfirst
      · rw [intercalate_cons hparts, List.forall_mem_append, List.forall_mem_cons]
        exact ⟨hfirst, hspace, ih hrest⟩

/-- Parts without brackets make a whole without brackets. -/
theorem bracketFree_intercalate {parts : List (List Char)} (h : ∀ part ∈ parts, BracketFree part) :
    BracketFree ([' '].intercalate parts) :=
  forall_mem_intercalate (by decide) h

/-- Words in front that are none of `openers` are passed over. -/
theorem OpensWith.firstReading?_intercalate {α : Type} {openers : List String}
    {read : Option Char → List Char → Option α} (h : OpensWith openers read)
    {front back : List (List Char)} (hfront : ∀ word ∈ front,
      WordLike word ∧ ∀ w ∈ openers, word.map foldLetter ≠ w.toList) (hback : back ≠ []) :
    firstReading? read none ([' '].intercalate (front ++ back)) =
      firstReading? read none ([' '].intercalate back) := by
  -- a word at a time, each with the space behind it
  induction front with
  | nil => rfl
  | cons word front ih =>
      obtain ⟨⟨hword, hne⟩, hrest⟩ := List.forall_mem_cons.1 hfront
      rw [List.cons_append, intercalate_cons (List.append_ne_nil_of_right_ne_nil front hback),
        h.firstReading?_append_cons hword hne (by decide), ih hrest]

/-- The relation `StartsWord` holds of a command if it holds of some part. -/
theorem startsWord_intercalate {v : List Char} (hv : WordLike v) (parts : List (List Char)) :
    StartsWord v ([' '].intercalate parts) ↔ ∃ part ∈ parts, StartsWord v part := by
  induction parts with
  | nil => simpa using not_startsWord_nil hv.ne_nil
  | cons first parts ih =>
      rw [List.exists_mem_cons_iff]
      by_cases hparts : parts = []
      · simp [hparts]
      · rw [intercalate_cons hparts, startsWord_append_cons hv (by decide), ih]

/-! ## Whole words -/

/-- What stands before a text counts only if it is a word character. -/
theorem containsWordAfter_congr {v : List Char} {before before' : Option Char}
    (h : before.any isWordChar = before'.any isWordChar) (s : List Char) :
    containsWordAfter v before s = containsWordAfter v before' s := by
  have halone : standsAlone v before s = standsAlone v before' s := by
    cases hlast : v.getLast? with
    | none => simp [standsAlone, isBoundary, hlast, h]
    | some c => simp [standsAlone, isBoundary, hlast, h]
  cases s with
  | nil => exact halone
  | cons c rest => rw [containsWordAfter, containsWordAfter, halone]

/-- A word stands alone in front of a character that is no word character as it does at the end. -/
theorem standsAlone_append_cons {v : List Char} (hv : WordLike v) {c : Char}
    (hc : isWordChar c = false) (before : Option Char) (front back : List Char) :
    standsAlone v before (front ++ c :: back) = standsAlone v before front := by
  have hmem : c ∉ v := by
    intro hmem
    rw [hv.classes c hmem] at hc
    cases hc
  rw [standsAlone, standsAlone, isPrefixOf_append_cons hmem]
  cases hprefix : v.isPrefixOf front with
  | false => rfl
  | true =>
      obtain ⟨rest, rfl⟩ := List.isPrefixOf_iff_prefix.1 hprefix
      -- the word is followed by the rest of the front, or by the character
      have hhead : ((v ++ rest) ++ c :: back).head? = (v ++ rest).head? := by
        obtain ⟨d, v, rfl⟩ := List.exists_cons_of_ne_nil hv.ne_nil
        rfl
      rw [hhead, List.append_assoc, List.drop_left, List.drop_left]
      cases rest with
      | nil => simp [isBoundary, hc]
      | cons d rest => rfl

/-- A word is a whole word on one side of a character that is no word character. -/
theorem containsWordAfter_append_cons {v : List Char} (hv : WordLike v) {c : Char}
    (hc : isWordChar c = false) (before : Option Char) (front back : List Char) :
    containsWordAfter v before (front ++ c :: back) =
      (containsWordAfter v before front || containsWordAfter v none back) := by
  -- along the front: the word stands alone here as it does without what follows
  induction front generalizing before with
  | nil =>
      have hhere := standsAlone_append_cons hv hc before [] back
      have hnone : containsWordAfter v (some c) back = containsWordAfter v none back :=
        containsWordAfter_congr (by simp [hc]) back
      rw [List.nil_append] at hhere ⊢
      simp only [containsWordAfter, hhere, hnone]
  | cons d front ih =>
      have hhere := standsAlone_append_cons hv hc before (d :: front) back
      rw [List.cons_append] at hhere
      rw [List.cons_append, containsWordAfter, hhere, ih, containsWordAfter, Bool.or_assoc]

theorem containsWordAfter_nil {v : List Char} (hv : WordLike v) (before : Option Char) :
    containsWordAfter v before [] = false := by
  obtain ⟨c, rest, rfl⟩ := List.exists_cons_of_ne_nil hv.ne_nil
  simp [containsWordAfter, standsAlone]

/-- The function `containsWord` holds of a command if it holds of some part. -/
theorem containsWord_intercalate {v : String} (hv : WordLike v.toList)
    (parts : List (List Char)) :
    containsWord ([' '].intercalate parts) v = parts.any fun part => containsWord part v := by
  have hempty : containsWord [] v = false := containsWordAfter_nil hv none
  induction parts with
  | nil => exact hempty
  | cons first parts ih =>
      rw [List.any_cons, ← ih]
      by_cases hparts : parts = []
      · rw [hparts, List.intercalate_singleton, List.intercalate_nil, hempty, Bool.or_false]
      · rw [intercalate_cons hparts, containsWord, containsWordAfter_append_cons hv (by decide)]
        rfl

end FileClerk.Command
