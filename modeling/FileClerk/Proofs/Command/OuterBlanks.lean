import FileClerk.Proofs.Command.PhraseName
import FileClerk.Proofs.Command.PhrasePlace

/-!
# Blanks around a command

A command is trimmed before it is read. That makes no difference to the folder that it names
(`namedFolder?_trim`): neither a bracket group nor a folder phrase starts at a blank, a blank counts
as little in front of one as the start of the text, and blanks at the end belong to none.
-/

set_option autoImplicit false

namespace FileClerk.Command

open FileClerk.Text

universe u

variable {α : Type u}

/-! ## Readers that do not mind outer blanks -/

/-- The reader `read` reads the same in a text with blanks around it. -/
structure IgnoresBlanks (read : Reader α) : Prop where
  blank : ∀ before c rest, isBlank c = true → read before (c :: rest) = none
  before : ∀ before before' s, before.any isWordChar = before'.any isWordChar →
    read before s = read before' s
  behind : ∀ before c s gap, Blanks gap → read before (c :: (s ++ gap)) = read before (c :: s)
  length : ∀ before s a n, read before s = some (a, n) → n ≤ s.length

namespace IgnoresBlanks

variable {read : Reader α}

theorem piecesFrom_congr (h : IgnoresBlanks read) {before before' : Option Char}
    (hbefore : before.any isWordChar = before'.any isWordChar) (skip : Nat) (s : List Char) :
    piecesFrom read before skip s = piecesFrom read before' skip s := by
  cases s with
  | nil => rw [piecesFrom, piecesFrom]
  | cons c rest =>
      cases skip with
      | succ skip => rw [piecesFrom, piecesFrom]
      | zero => rw [piecesFrom, piecesFrom, h.before before before' _ hbefore]

/-- Nothing is read in blanks, whatever stands behind them. -/
theorem piecesFrom_blanks_append (h : IgnoresBlanks read) {gap : List Char} (hgap : Blanks gap)
    (before : Option Char) (s : List Char) :
    piecesFrom read before 0 (gap ++ s) =
      gap.map .plain ++ piecesFrom read (gap.getLast?.or before) 0 s := by
  refine piecesFrom_append_of_none fun left right hsplit hne => ?_
  obtain ⟨c, right, rfl⟩ := List.exists_cons_of_ne_nil hne
  exact h.blank _ c _ (hgap c (hsplit ▸ List.mem_append_right left List.mem_cons_self))

/-- Blanks around a text bring in no reading and change none. -/
theorem readings_blanks_append_blanks (h : IgnoresBlanks read) {lead trail : List Char}
    (hlead : Blanks lead) (htrail : Blanks trail) (s : List Char) :
    readings read (lead ++ (s ++ trail)) = readings read s := by
  have hbefore : (lead.getLast?.or none).any isWordChar = (none : Option Char).any isWordChar := by
    rw [Option.or_none]
    cases hlast : lead.getLast? with
    | none => rfl
    | some c => exact (classes_of_isBlank (hlead c (List.mem_of_getLast? hlast))).1
  have hpieces : pieces read (lead ++ (s ++ trail)) =
      lead.map .plain ++ (pieces read s ++ trail.map .plain) := by
    have hend := h.piecesFrom_blanks_append htrail (s.getLast?.or (lead.getLast?.or none)) []
    rw [List.append_nil, piecesFrom, List.append_nil] at hend
    rw [pieces, h.piecesFrom_blanks_append hlead,
      piecesFrom_append (fun before c s => h.behind before c s trail htrail) h.length _
        (Nat.zero_le _), hend, h.piecesFrom_congr hbefore]
    rfl
  exact readings_eq_of_pieces_eq hpieces

end IgnoresBlanks

/-! ## Bracket groups -/

theorem bracketFree_of_blanks {gap : List Char} (hgap : Blanks gap) : BracketFree gap := by
  intro c hc
  rw [← Bool.not_eq_true]
  exact fun hbracket => (classes_of_isBracket hbracket).2.1 (hgap c hc)

theorem ignoresBlanks_bracketGroup : IgnoresBlanks bracketGroup where
  blank := by
    intro before c rest hc
    exact bracketGroup_eq_none (bracketFree_of_blanks (List.forall_mem_singleton.2 hc) c
      (List.mem_singleton_self c)) before rest
  before := fun _ _ _ _ => rfl
  behind := fun before c s gap hgap =>
    bracketGroup_append_free (bracketFree_of_blanks hgap) before c s
  length := fun _ _ _ _ => length_bracketGroup

/-! ## Folder phrases -/

theorem keepsReading_id : KeepsReading id :=
  ⟨fun _ => rfl, fun _ => rfl, fun _ _ _ => Iff.rfl⟩

theorem wordRun_append_blanks {gap : List Char} (hgap : Blanks gap) (count : Nat) (s : List Char) :
    wordRun count ((s ++ gap).dropWhile isBlank) =
      mapRun id (· ++ gap) (wordRun count (s.dropWhile isBlank)) := by
  induction count generalizing s with
  | zero => rfl
  | succ count ih =>
      by_cases hblank : Blanks s
      · -- nothing but blanks is no word
        have hnil : s.dropWhile isBlank = [] := List.dropWhile_eq_nil_iff.2 hblank
        have hnil' : (s ++ gap).dropWhile isBlank = [] :=
          List.dropWhile_eq_nil_iff.2 (List.forall_mem_append.2 ⟨hblank, hgap⟩)
        rw [hnil, hnil']
        rfl
      · have hdrop : (s ++ gap).dropWhile isBlank = s.dropWhile isBlank ++ gap := by
          rw [List.dropWhile_append, if_neg]
          rwa [List.isEmpty_iff, List.dropWhile_eq_nil_iff]
        have hstop : StopsBefore isWordChar gap :=
          .of_forall fun c hc => (classes_of_isBlank (hgap c hc)).1
        rw [hdrop]
        generalize s.dropWhile isBlank = rest
        rw [wordRun, wordRun, hstop.takeWhile_append, hstop.dropWhile_append, ih]
        split
        · rfl
        · simp [mapRun]

/-- Letters stand in front of the blanks at the end of a text. -/
theorem exists_of_append_blanks {s u more gap : List Char} (hgap : Blanks gap)
    (hu : ∀ c ∈ u, IsLetter c) (h : s ++ gap = u ++ more) :
    ∃ back, s = u ++ back ∧ more = back ++ gap := by
  rcases List.append_eq_append_iff.1 h with ⟨further, rfl, hbehind⟩ | ⟨back, hs, hmore⟩
  · cases further with
    | nil => exact ⟨[], by simp, by simpa using hbehind.symm⟩
    | cons c further =>
        have hblank : isBlank c = true := hgap c (hbehind ▸ List.mem_cons_self)
        exact absurd (hu c (by simp)) (not_isLetter_of_isBlank hblank)
  · exact ⟨back, hs, hmore⟩

/-- A preposition that `afterPreposition?` finds in a text is found with more text behind it as
well. -/
theorem exists_afterPreposition?_append {s rest : List Char} (h : afterPreposition? s = some rest)
    (tail : List Char) : ∃ back, rest = back.dropWhile isBlank ∧
      afterPreposition? (s ++ tail) = some ((back ++ tail).dropWhile isBlank) := by
  obtain ⟨u, back, rfl, hu, hblank, rfl⟩ := afterPreposition?_eq_some_iff.1 h
  have hblank' : (back ++ tail).head?.any isBlank = true := by
    cases back with
    | nil => cases hblank
    | cons c back => exact hblank
  exact ⟨back, rfl, afterPreposition?_eq_some_iff.2
    ⟨u, back ++ tail, by rw [List.append_assoc], hu, hblank', rfl⟩⟩

/-- Nothing follows a preposition that is there only with the blanks at the end of a text. -/
theorem eq_nil_of_afterPreposition?_append {s rest gap : List Char} (hgap : Blanks gap)
    (hnone : afterPreposition? s = none) (h : afterPreposition? (s ++ gap) = some rest) :
    rest = [] := by
  obtain ⟨u, more, heq, ⟨w, hw, hu⟩, hblank, rfl⟩ := afterPreposition?_eq_some_iff.1 h
  have hletters := isLetter_of_map (letters_prepositions w hw) hu
  obtain ⟨back, rfl, rfl⟩ := exists_of_append_blanks hgap hletters heq
  cases back with
  | nil => exact List.dropWhile_eq_nil_iff.2 hgap
  | cons c back =>
      rw [afterPreposition?_eq_some_iff.2 ⟨u, c :: back, rfl, ⟨w, hw, hu⟩, hblank, rfl⟩] at hnone
      cases hnone

/-- The name that is found in the words behind a preposition, with the text behind the phrase:
`folderPhrase` without its test for a word boundary. -/
def nameAt? (s : List Char) : Option (List (List Char) × List Char) :=
  (afterPreposition? s).bind fun rest => nameAfterArticle? (wordRun 5 rest)

/-- The reader `folderPhrase` is `nameAt?` at a word boundary; a phrase takes up everything up to
the text behind it. -/
theorem folderPhrase_eq (before : Option Char) (s : List Char) :
    folderPhrase before s = if before.any isWordChar then none
      else (nameAt? s).map fun found => (found.1, s.length - found.2.length) := by
  rw [folderPhrase, nameAt?]
  split
  · rfl
  · cases afterPreposition? s with
    | none => rfl
    | some rest =>
        rw [Option.bind_eq_bind, Option.bind_some, Option.bind_some]
        cases nameAfterArticle? (wordRun 5 rest) with
        | none => rfl
        | some found => rfl

/-- Blanks at the end of a text stay behind the name. -/
theorem nameAt?_append_blanks {gap : List Char} (hgap : Blanks gap) (s : List Char) :
    nameAt? (s ++ gap) = (nameAt? s).map (mapFound id (· ++ gap)) := by
  rw [nameAt?, nameAt?]
  cases hwithout : afterPreposition? s with
  | some rest =>
      obtain ⟨back, rfl, hwith⟩ := exists_afterPreposition?_append hwithout gap
      rw [hwith, Option.bind_some, Option.bind_some, wordRun_append_blanks hgap,
        keepsReading_id.nameAfterArticle?_map]
  | none =>
      cases hwith : afterPreposition? (s ++ gap) with
      | none => rfl
      | some rest =>
          obtain rfl := eq_nil_of_afterPreposition?_append hgap hwithout hwith
          rfl

/-- The reader `folderPhrase` leaves the blanks at the end of a text outside of a phrase. -/
theorem folderPhrase_append_blanks {gap : List Char} (hgap : Blanks gap) (before : Option Char)
    (s : List Char) : folderPhrase before (s ++ gap) = folderPhrase before s := by
  rw [folderPhrase_eq, folderPhrase_eq, nameAt?_append_blanks hgap, Option.map_map]
  congr 2
  funext found
  simp [mapFound, Nat.add_sub_add_right]

theorem ignoresBlanks_folderPhrase : IgnoresBlanks folderPhrase where
  blank := by
    intro before c rest hc
    exact opensWith_folderPhrase.eq_none (opensWith_folderPhrase.not_opens_of_stop
      (stopsBefore_cons.2 (classes_of_isBlank hc).1)) before
  before := by
    intro before before' s h
    rw [folderPhrase_eq, folderPhrase_eq, h]
  behind := fun before c s gap hgap => folderPhrase_append_blanks hgap before (c :: s)
  length := by
    intro before s words n h
    obtain ⟨-, p, rest, -, rfl, rfl, -⟩ := exists_of_folderPhrase h
    rw [List.length_append]
    exact Nat.le_add_right _ _

/-! ## The folder that a command names -/

/-- The reader `namedFolder?` does not see the blanks around a command. -/
theorem namedFolder?_trim (command : List Char) :
    namedFolder? (trim command) = namedFolder? command := by
  have hlead : Blanks (command.takeWhile isBlank) := fun c hc => List.mem_takeWhile_imp hc
  have htrail : Blanks ((command.dropWhile isBlank).reverse.takeWhile isBlank).reverse :=
    fun c hc => List.mem_takeWhile_imp (List.mem_reverse.1 hc)
  have hgroups := ignoresBlanks_bracketGroup.readings_blanks_append_blanks hlead htrail
    (trim command)
  have hphrases := ignoresBlanks_folderPhrase.readings_blanks_append_blanks hlead htrail
    (trim command)
  rw [takeWhile_append_trim_append] at hgroups hphrases
  rw [namedFolder?, namedFolder?, bracketFolder?, bracketFolder?, phraseFolder?, phraseFolder?,
    hgroups, hphrases]

end FileClerk.Command
