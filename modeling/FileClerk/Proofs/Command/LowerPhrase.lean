import FileClerk.Proofs.Command.PhrasePlace

/-!
# Phrases of a text in its lower-case form

The folder of a command is looked for in the command as it is written, and the text in which types
are looked for is its lower-case form without the phrases that are found there. `lowerOutside` is
what that text should be: the lower-case form of what lies outside of the phrases of the command
itself. The two are one text unless the command has a capital i with a dot
(`lowerOutside_eq_blankOut_lower`), and without a capital sigma it makes no difference whether
phrases are taken out first or the text is put into lower case first (`lowerOutside_eq_lower`).
-/

set_option autoImplicit false

namespace FileClerk.Command

open FileClerk.Text

universe u

variable {α : Type u}

/-- The function `lowerOutside` behind the reversed text `before`, where the first `skip` characters
belong to a reading already taken. -/
def lowerOutsideFrom (read : Reader α) (before : List Char) : Nat → List Char → List Char
  | _, [] => []
  | skip + 1, c :: rest => lowerOutsideFrom read (c :: before) skip rest
  | 0, c :: rest =>
    match read before.head? (c :: rest) with
    | some (_, n + 1) => ' ' :: lowerOutsideFrom read (c :: before) n rest
    | _ => formAt before c rest ++ lowerOutsideFrom read (c :: before) 0 rest

/-- The lower-case form of what lies outside of the readings of `read` in the text as it is written,
with a space for each of them. -/
def lowerOutside (read : Reader α) (s : List Char) : List Char := lowerOutsideFrom read [] 0 s

/-- The function `blankOut` where the first `skip` characters belong to a reading already taken. -/
def blankOutFrom (read : Reader α) (before : Option Char) (skip : Nat) (s : List Char) :
    List Char :=
  (piecesFrom read before skip s).map fun
    | .plain c => c
    | .found _ => ' '

theorem lowerOutsideFrom_eq {before : List Char} {before' : Option Char} {s : List Char}
    (hdot : 'İ' ∉ s) (hbefore : before.head?.map readAs = before'.map readAs) (skip : Nat) :
    lowerOutsideFrom folderPhrase before skip s =
      blankOutFrom folderPhrase before' skip (lowerAfter before s) := by
  induction s generalizing before before' skip with
  | nil =>
      rw [lowerOutsideFrom, lowerAfter, blankOutFrom, piecesFrom]
      rfl
  | cons c rest ih =>
      obtain ⟨hc, hrest⟩ := not_or.1 (List.mem_cons.not.1 hdot)
      obtain ⟨d, hform, hd⟩ := exists_formAt_eq (Ne.symm hc) before rest
      have hnext : (c :: before).head?.map readAs = (some d).map readAs := by
        rw [List.head?_cons, Option.map_some, Option.map_some, hd]
      have hsame : (c :: rest).map readAs = (d :: lowerAfter (c :: before) rest).map readAs := by
        rw [List.map_cons, List.map_cons, hd, map_readAs_lowerAfter hrest]
      have hlength := folderPhrase_length_eq hbefore hsame
      rw [lowerAfter_cons, hform, List.singleton_append]
      cases skip with
      | succ skip => exact ih hrest hnext skip
      | zero =>
          rw [lowerOutsideFrom, blankOutFrom, piecesFrom]
          -- the reader takes up as many characters of both texts
          cases hread : folderPhrase before.head? (c :: rest) with
          | none =>
              rw [hread, Option.map_none] at hlength
              rw [Option.map_eq_none_iff.1 hlength.symm, hform, List.singleton_append]
              exact congrArg _ (ih hrest hnext 0)
          | some found =>
              obtain ⟨words, n⟩ := found
              rw [hread, Option.map_some] at hlength
              obtain ⟨⟨words', n'⟩, hread', rfl⟩ := Option.map_eq_some_iff.1 hlength.symm
              rw [hread']
              cases n' with
              | zero =>
                  rw [hform, List.singleton_append]
                  exact congrArg _ (ih hrest hnext 0)
              | succ n => exact congrArg _ (ih hrest hnext n)

/-- For a text without `İ` it makes no difference whether phrases are looked for in it or in its
lower-case form, as `process` and `extract` do. -/
theorem lowerOutside_eq_blankOut_lower {s : List Char} (hdot : 'İ' ∉ s) :
    lowerOutside folderPhrase s = blankOut folderPhrase (lower s) :=
  lowerOutsideFrom_eq hdot rfl 0

theorem lowerOutsideFrom_eq_flatMap {read : Reader α} {s : List Char} (hsigma : 'Σ' ∉ s)
    (before : List Char) (skip : Nat) :
    lowerOutsideFrom read before skip s =
      (blankOutFrom read before.head? skip s).flatMap lowerChar := by
  induction s generalizing before skip with
  | nil =>
      rw [lowerOutsideFrom, blankOutFrom, piecesFrom]
      rfl
  | cons c rest ih =>
      obtain ⟨hc, hrest⟩ := not_or.1 (List.mem_cons.not.1 hsigma)
      have hform : formAt before c rest = lowerChar c := by
        rw [formAt, if_neg (by simpa using Ne.symm hc)]
      cases skip with
      | succ skip => exact ih hrest (c :: before) skip
      | zero =>
          -- a character outside of readings, or the first one of a reading
          have hplain : lowerChar c ++ lowerOutsideFrom read (c :: before) 0 rest =
              (c :: blankOutFrom read (some c) 0 rest).flatMap lowerChar := by
            rw [ih hrest, List.flatMap_cons, List.head?_cons]
          have hfound : ∀ n, ' ' :: lowerOutsideFrom read (c :: before) n rest =
              (' ' :: blankOutFrom read (some c) n rest).flatMap lowerChar := by
            intro n
            rw [ih hrest, List.flatMap_cons, List.head?_cons]
            rfl
          rw [lowerOutsideFrom, blankOutFrom, piecesFrom, hform]
          cases read before.head? (c :: rest) with
          | none => exact hplain
          | some found =>
              obtain ⟨a, n⟩ := found
              cases n with
              | zero => exact hplain
              | succ n => exact hfound n

/-- The function `blankOutFrom` puts nothing but spaces into a text. -/
theorem mem_of_mem_blankOutFrom {read : Reader α} {before : Option Char} {skip : Nat}
    {s : List Char} {d : Char} (h : d ∈ blankOutFrom read before skip s) : d ∈ s ∨ d = ' ' := by
  induction s generalizing before skip with
  | nil =>
      rw [blankOutFrom, piecesFrom] at h
      cases h
  | cons c rest ih =>
      have hrest : ∀ {skip : Nat}, d ∈ blankOutFrom read (some c) skip rest →
          d ∈ c :: rest ∨ d = ' ' :=
        fun hmem => (ih hmem).imp_left (List.mem_cons_of_mem c)
      cases skip with
      | succ skip => exact hrest h
      | zero =>
          rw [blankOutFrom, piecesFrom] at h
          split at h
          · exact (List.mem_cons.1 h).elim Or.inr hrest
          · exact (List.mem_cons.1 h).elim (fun heq => Or.inl (heq ▸ List.mem_cons_self)) hrest

/-- For a text without `Σ`, `lowerOutside` is `lower` of `blankOut`. -/
theorem lowerOutside_eq_lower {read : Reader α} {s : List Char} (hsigma : 'Σ' ∉ s) :
    lowerOutside read s = lower (blankOut read s) := by
  have hblanked : 'Σ' ∉ blankOut read s := by
    intro hmem
    rcases mem_of_mem_blankOutFrom hmem with hs | hspace
    · exact hsigma hs
    · exact absurd hspace (by decide)
  rw [lower_eq_flatMap hblanked]
  exact lowerOutsideFrom_eq_flatMap hsigma [] 0

end FileClerk.Command
