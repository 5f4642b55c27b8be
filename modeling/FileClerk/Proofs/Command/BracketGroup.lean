import FileClerk.Proofs.Command.Destination
import FileClerk.Proofs.Text.Lower
import FileClerk.Proofs.Text.Piece

/-!
# Bracket groups

A bracket group is a text without brackets between a bracket that opens and one that closes
(`bracketGroup_eq_some_iff`). No group reaches over the bracket that opens another one, so a group
cuts a text in three: the pieces of what stands in front of it, its own contents, and the pieces of
what stands behind it (`pieces_group`). Where bracket groups are taken out, what is left does not
depend on the contents of a group (`blankOut_group`), and the folder that a text names is the first
group that is not blank (`bracketFolder?_group`).
-/

set_option autoImplicit false

namespace FileClerk.Command

open FileClerk.Text

/-! ## Groups -/

theorem bracketGroup_eq_none {c : Char} (hc : isBracket c = false) (before : Option Char)
    (rest : List Char) : bracketGroup before (c :: rest) = none := by
  unfold bracketGroup
  split
  · rename_i heq
    cases heq
    cases hc
  · rfl

/-- The reader `bracketGroup` reads nothing in a text without brackets. -/
theorem firstReading?_bracketGroup {s : List Char} (h : BracketFree s) (before : Option Char) :
    firstReading? bracketGroup before s = none := by
  induction s generalizing before with
  | nil => rfl
  | cons c rest ih =>
      rw [firstReading?_cons, bracketGroup_eq_none (h c List.mem_cons_self), Option.none_or]
      exact ih (fun d hd => h d (List.mem_cons_of_mem _ hd)) (some c)

/-- A bracket group is read up to its closing bracket. -/
theorem bracketGroup_append {body : List Char} (hbody : BracketFree body) (before : Option Char)
    (back : List Char) :
    bracketGroup before ('[' :: (body ++ ']' :: back)) = some (body, body.length + 2) := by
  have htake : (body ++ ']' :: back).takeWhile (fun c => !isBracket c) = body :=
    takeWhile_append_stop (fun c hc => by simp [hbody c hc]) (stopsBefore_cons.2 (by decide))
  simp [bracketGroup, htake]

/-- The reader `bracketGroup` reads `body` where the text is `[body]` and a rest, and `body` has no
brackets. It takes up the two brackets as well. -/
theorem bracketGroup_eq_some_iff {before : Option Char} {s body : List Char} {n : Nat} :
    bracketGroup before s = some (body, n) ↔ n = body.length + 2 ∧ BracketFree body ∧
      ∃ back, s = '[' :: (body ++ ']' :: back) := by
  constructor
  · intro h
    unfold bracketGroup at h
    split at h
    · rename_i rest
      dsimp only at h
      split at h
      · rename_i hclose
        cases h
        refine ⟨rfl, fun c hc => by simpa using List.mem_takeWhile_imp hc, ?_⟩
        obtain ⟨back, hback⟩ := List.head?_eq_some_iff.1 (beq_iff_eq.1 hclose)
        refine ⟨back, ?_⟩
        rw [← hback, List.prefix_iff_eq_append.1 (List.takeWhile_prefix _)]
      · cases h
    · cases h
  · rintro ⟨rfl, hbody, back, rfl⟩
    exact bracketGroup_append hbody before back

/-- A reader of bracket groups does not look at what stands before them. -/
theorem piecesFrom_bracketGroup_congr (before before' : Option Char) (skip : Nat) (s : List Char) :
    piecesFrom bracketGroup before skip s = piecesFrom bracketGroup before' skip s := by
  cases s with
  | nil => rw [piecesFrom, piecesFrom]
  | cons c rest =>
      cases skip with
      | zero => rfl
      | succ skip => rfl

/-- Characters that are no brackets are pieces of their own. -/
theorem piecesFrom_bracketGroup_append {front : List Char} (hfront : BracketFree front)
    (before : Option Char) (s : List Char) :
    piecesFrom bracketGroup before 0 (front ++ s) =
      front.map .plain ++ piecesFrom bracketGroup none 0 s := by
  rw [← piecesFrom_bracketGroup_congr (front.getLast?.or before) none]
  refine piecesFrom_append_of_none fun left right hsplit hne => ?_
  obtain ⟨c, right, rfl⟩ := List.exists_cons_of_ne_nil hne
  exact bracketGroup_eq_none (hfront c (hsplit ▸ List.mem_append_right left List.mem_cons_self)) _ _

/-- The function `blankOut bracketGroup` copies characters that are no brackets. -/
theorem blankOut_bracketGroup_append {front : List Char} (hfront : BracketFree front)
    (s : List Char) :
    blankOut bracketGroup (front ++ s) = front ++ blankOut bracketGroup s := by
  rw [blankOut, pieces, piecesFrom_bracketGroup_append hfront, List.map_append, List.map_map]
  congr 1
  exact List.map_id'' (fun _ => rfl) front

/-! ## A group in a text -/

/-- A `tail` changes no group that starts before it, unless it closes one. -/
theorem bracketGroup_append_of {tail : List Char}
    (htail : ∀ body back, BracketFree body → tail ≠ body ++ ']' :: back) (before : Option Char)
    (c : Char) (s : List Char) :
    bracketGroup before (c :: (s ++ tail)) = bracketGroup before (c :: s) := by
  apply Option.ext
  rintro ⟨body, n⟩
  rw [bracketGroup_eq_some_iff, bracketGroup_eq_some_iff]
  refine and_congr_right fun _ => and_congr_right fun hbody => ?_
  constructor
  · rintro ⟨back, heq⟩
    obtain ⟨rfl, hrest⟩ := List.cons.inj heq
    rcases List.append_eq_append_iff.1 hrest with ⟨more, rfl, hmore⟩ | ⟨more, rfl, hmore⟩
    · exact absurd hmore (htail more back fun d hd => hbody d (List.mem_append_right _ hd))
    · cases more with
      | nil => exact absurd hmore.symm (htail [] back fun d hd => (List.not_mem_nil hd).elim)
      | cons d more =>
          obtain ⟨rfl, -⟩ := List.cons.inj hmore
          exact ⟨more, rfl⟩
  · rintro ⟨back, heq⟩
    obtain ⟨rfl, rfl⟩ := List.cons.inj heq
    exact ⟨back ++ tail, by simp⟩

/-- No group reaches over a bracket that opens another one. -/
theorem bracketGroup_append_open (before : Option Char) (c : Char) (s tail : List Char) :
    bracketGroup before (c :: (s ++ '[' :: tail)) = bracketGroup before (c :: s) := by
  refine bracketGroup_append_of (fun body back hbody heq => ?_) before c s
  cases body with
  | nil => cases heq
  | cons d body =>
      obtain ⟨rfl, -⟩ := List.cons.inj heq
      cases hbody '[' List.mem_cons_self

/-- No group reaches into a text without brackets. -/
theorem bracketGroup_append_free {tail : List Char} (htail : BracketFree tail)
    (before : Option Char) (c : Char) (s : List Char) :
    bracketGroup before (c :: (s ++ tail)) = bracketGroup before (c :: s) := by
  refine bracketGroup_append_of (fun body back _ heq => ?_) before c s
  rw [heq] at htail
  cases htail ']' (List.mem_append_right _ List.mem_cons_self)

/-- A group is no longer than the text that it is read in. -/
theorem length_bracketGroup {before : Option Char} {s body : List Char} {n : Nat}
    (h : bracketGroup before s = some (body, n)) : n ≤ s.length := by
  obtain ⟨rfl, -, back, rfl⟩ := bracketGroup_eq_some_iff.1 h
  simp only [List.length_cons, List.length_append]
  omega

/-- A group `[body]` cuts the `pieces` of a text in three. -/
theorem pieces_group {body : List Char} (hbody : BracketFree body) (front back : List Char) :
    pieces bracketGroup (front ++ '[' :: (body ++ ']' :: back)) =
      pieces bracketGroup front ++ .found body :: pieces bracketGroup back := by
  have hskip := piecesFrom_skip_append bracketGroup (some '[') (body ++ [']']) back
  rw [List.append_assoc, List.singleton_append, List.length_append, List.length_singleton] at hskip
  rw [pieces, piecesFrom_append (fun before c s => bracketGroup_append_open before c s _)
    (fun _ _ _ _ => length_bracketGroup) none (Nat.zero_le _), piecesFrom,
    bracketGroup_append hbody]
  simp only [hskip]
  rw [piecesFrom_bracketGroup_congr _ none 0 back]
  rfl

/-- The function `blankOut` leaves a space for `[body]`, whatever `body` is. -/
theorem blankOut_group {body : List Char} (hbody : BracketFree body) (front back : List Char) :
    blankOut bracketGroup (front ++ '[' :: (body ++ ']' :: back)) =
      blankOut bracketGroup front ++ ' ' :: blankOut bracketGroup back := by
  rw [blankOut, pieces_group hbody, List.map_append, List.map_cons]
  rfl

/-- The contents of a group stand among the readings. -/
theorem readings_group {body : List Char} (hbody : BracketFree body) (front back : List Char) :
    readings bracketGroup (front ++ '[' :: (body ++ ']' :: back)) =
      readings bracketGroup front ++ body :: readings bracketGroup back := by
  rw [readings, pieces_group hbody, List.filterMap_append, List.filterMap_cons]
  rfl

/-- A bracket group at the end of a text without other brackets leaves a space. -/
theorem blankOut_bracketGroup {front body : List Char} (hfront : BracketFree front)
    (hbody : BracketFree body) :
    blankOut bracketGroup (front ++ '[' :: (body ++ [']'])) = front ++ [' '] := by
  rw [blankOut_group hbody, blankOut_eq_self (firstReading?_bracketGroup hfront none)]
  rfl

/-! ## The folder that a group names -/

/-- Each group `[body]` of the text is blank, so `extract_bracket_folder` names no folder. -/
def BlankGroups (s : List Char) : Prop :=
  ∀ front body back, s = front ++ '[' :: (body ++ ']' :: back) → BracketFree body → Blanks body

theorem BlankGroups.of_append {gap s : List Char} (h : BlankGroups (gap ++ s)) : BlankGroups s := by
  rintro front body back rfl hbody
  exact h (gap ++ front) body back (by simp) hbody

/-- All groups of a text are read in turn. -/
theorem blankGroups_iff {s : List Char} :
    BlankGroups s ↔ ∀ body ∈ readings bracketGroup s, Blanks body := by
  constructor
  · intro h body hbody
    obtain ⟨front, back, n, rfl, hread⟩ := exists_of_mem_readings hbody
    obtain ⟨-, hfree, rest, rfl⟩ := bracketGroup_eq_some_iff.1 hread
    exact h front body rest rfl hfree
  · rintro h front body back rfl hfree
    apply h
    rw [readings_group hfree]
    exact List.mem_append_right _ List.mem_cons_self

instance (s : List Char) : Decidable (BlankGroups s) :=
  decidable_of_iff _ blankGroups_iff.symm

/-- A text with a group that is not blank has a first one. -/
theorem exists_first_group {s : List Char} (h : ¬ BlankGroups s) :
    ∃ front body back, s = front ++ '[' :: (body ++ ']' :: back) ∧ BlankGroups front ∧
      BracketFree body ∧ ∃ c ∈ body, isBlank c = false := by
  induction hlength : s.length using Nat.strong_induction_on generalizing s with
  | _ n ih =>
      simp only [BlankGroups, Blanks, not_forall, Bool.not_eq_true] at h
      obtain ⟨front, body, back, rfl, hbody, c, hc, hnamed⟩ := h
      by_cases hfront : BlankGroups front
      · exact ⟨front, body, back, rfl, hfront, hbody, c, hc, hnamed⟩
      · -- the text in front of the group has a first one
        obtain ⟨front', body', back', rfl, hfirst⟩ :=
          ih front.length (by simp [← hlength]) hfront rfl
        exact ⟨front', body', back' ++ '[' :: (body ++ ']' :: back), by simp, hfirst⟩

/-- Blank groups name no folder. -/
theorem bracketFolder?_of_blankGroups {s : List Char} (h : BlankGroups s) :
    bracketFolder? s = none := by
  rw [bracketFolder?, List.find?_eq_none]
  intro name hname
  obtain ⟨group, hgroup, rfl⟩ := List.mem_map.1 hname
  rw [(trim_eq_nil_iff group).2 (blankGroups_iff.1 h group hgroup)]
  decide

/-- The folder `bracketFolder?` is the first group that is not blank, trimmed. -/
theorem bracketFolder?_group {front body : List Char} (hfront : BlankGroups front)
    (hbody : BracketFree body) (hnamed : ∃ c ∈ body, isBlank c = false) (back : List Char) :
    bracketFolder? (front ++ '[' :: (body ++ ']' :: back)) = some (trim body) := by
  have hempty : ((readings bracketGroup front).map trim).find? (fun name => !name.isEmpty) =
      none := bracketFolder?_of_blankGroups hfront
  have hne : trim body ≠ [] := by
    rw [Ne, trim_eq_nil_iff]
    obtain ⟨c, hc, hblank⟩ := hnamed
    intro hall
    rw [hall c hc] at hblank
    cases hblank
  rw [bracketFolder?, readings_group hbody, List.map_append, List.map_cons, List.find?_append,
    hempty, Option.none_or, List.find?_cons_of_pos (by simpa using hne)]

/-- The folder `bracketFolder?` is `none` exactly if all groups are blank. -/
theorem bracketFolder?_eq_none_iff {s : List Char} : bracketFolder? s = none ↔ BlankGroups s := by
  refine ⟨fun h => ?_, bracketFolder?_of_blankGroups⟩
  by_contra hgroups
  obtain ⟨front, body, back, rfl, hfront, hbody, hnamed⟩ := exists_first_group hgroups
  rw [bracketFolder?_group hfront hbody hnamed] at h
  cases h

/-! ## Lower-case forms -/

/-- The function `lowerChar` makes no bracket out of another character. -/
theorem bracketFree_lowerChar {c : Char} (hc : isBracket c = false) :
    BracketFree (lowerChar c) := by
  by_cases hascii : c.toNat < 128
  · revert hc
    exact forall_ascii (P := fun c => isBracket c = false → BracketFree (lowerChar c))
      (by decide) hascii
  · intro d hd
    rw [← Bool.not_eq_true, isBracket_iff]
    -- the forms in ASCII are two letters and the character zero
    rintro (rfl | rfl)
    · exact absurd (toNat_of_mem_lowerChar hascii hd (by decide)) (by decide)
    · exact absurd (toNat_of_mem_lowerChar hascii hd (by decide)) (by decide)

theorem BracketFree.lowerAfter {s : List Char} (h : BracketFree s) (before : List Char) :
    BracketFree (lowerAfter before s) := by
  induction s generalizing before with
  | nil =>
      intro c hc
      cases hc
  | cons c rest ih =>
      intro d hd
      rw [Text.lowerAfter, List.mem_append] at hd
      rcases hd with hd | hd
      · split at hd
        · -- the forms of a capital sigma are letters
          rw [List.mem_singleton] at hd
          rw [hd]
          split
          · decide
          · decide
        · exact bracketFree_lowerChar (h c List.mem_cons_self) d hd
      · exact ih (fun e he => h e (List.mem_cons_of_mem _ he)) (c :: before) d hd

/-- A text without brackets has none in lower case. -/
theorem BracketFree.lower {s : List Char} (h : BracketFree s) : BracketFree (lower s) :=
  h.lowerAfter []

end FileClerk.Command
