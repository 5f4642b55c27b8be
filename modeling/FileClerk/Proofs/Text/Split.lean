import FileClerk.Text.Basic

/-!
# Stretches between marks

A text is cut at a mark as the library cuts it (`splitAtChar_eq_splitOn`). No stretch has the mark
in it, and stretches without the mark are found again in the text that they make with marks between
them (`splitAtChar_intercalate`).
-/

set_option autoImplicit false

namespace FileClerk.Text

variable {mark : Char}

/-- The stretches of `splitAtChar` are those of `List.splitOn`. -/
theorem splitAtChar_eq_splitOn (mark : Char) (s : List Char) :
    splitAtChar mark s = s.splitOn mark := by
  induction s with
  | nil => rfl
  | cons c rest ih =>
      rw [splitAtChar, ih, List.splitOn_cons_eq_if_modifyHead]
      split
      · rfl
      · cases hsplit : rest.splitOn mark with
        | nil => exact absurd hsplit (List.splitOn_ne_nil mark rest)
        | cons stretch more => rfl

/-- No stretch has the mark in it. -/
theorem not_mem_of_mem_splitAtChar {s stretch : List Char}
    (h : stretch ∈ splitAtChar mark s) : mark ∉ stretch := by
  induction s generalizing stretch with
  | nil =>
      obtain rfl := List.mem_singleton.1 h
      exact List.not_mem_nil
  | cons c rest ih =>
      rw [splitAtChar] at h
      split at h
      · rcases List.mem_cons.1 h with rfl | hrest
        · exact List.not_mem_nil
        · exact ih hrest
      · rename_i hc
        have hmark : mark ≠ c := fun heq => hc (beq_iff_eq.2 heq.symm)
        split at h
        · obtain rfl := List.mem_singleton.1 h
          simpa using hmark
        · rename_i first more hsplit
          rcases List.mem_cons.1 h with rfl | hmore
          · have hfirst := ih (hsplit ▸ List.mem_cons_self)
            simpa using ⟨hmark, hfirst⟩
          · exact ih (hsplit ▸ List.mem_cons_of_mem _ hmore)

/-- The function `splitAtChar mark` undoes `intercalate [mark]` on stretches without the mark. -/
theorem splitAtChar_intercalate {stretches : List (List Char)}
    (hne : stretches ≠ []) (hfree : ∀ stretch ∈ stretches, mark ∉ stretch) :
    splitAtChar mark ([mark].intercalate stretches) = stretches := by
  rw [splitAtChar_eq_splitOn]
  exact List.splitOn_intercalate mark hfree hne

/-- A text without the mark is not cut. -/
theorem splitAtChar_eq_singleton {s : List Char} (h : mark ∉ s) : splitAtChar mark s = [s] := by
  rw [splitAtChar_eq_splitOn]
  exact List.splitOn_eq_singleton h

/-- A text is cut at the first mark in it. -/
theorem splitAtChar_append {stretch : List Char} (h : mark ∉ stretch) (rest : List Char) :
    splitAtChar mark (stretch ++ mark :: rest) = stretch :: splitAtChar mark rest := by
  rw [splitAtChar_eq_splitOn, splitAtChar_eq_splitOn]
  exact List.splitOn_append_cons_self_of_not_mem h rest

end FileClerk.Text
