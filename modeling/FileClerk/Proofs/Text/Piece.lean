import FileClerk.Proofs.Text.CharClass
import FileClerk.Text.Piece

/-!
# Readings in parts of a text

Where a text is put together from parts, its first reading is the first one of the parts, as long
as the reader does not look beyond the end of a part (`firstReading?_append`), and its pieces are
the pieces of the parts (`piecesFrom_append`). A text without a reading has no pieces but its
characters, so it stays as it is when readings are blanked out (`blankOut_eq_self`). Two texts in
which the reader finds the same at each place have the same readings (`Agree.readings_eq`), and so
has a text with more plain characters at its ends (`readings_eq_of_pieces_eq`).
-/

set_option autoImplicit false

namespace FileClerk.Text

universe u

variable {α : Type u}

/-! ## The first value -/

/-- If all values that the members of a list give are one, the first value is the one that some
member gives. -/
theorem findSome?_eq_some_iff_of_unique {β : Type} {f : α → Option β} {l : List α}
    (hunique : ∀ a ∈ l, ∀ a' ∈ l, ∀ b b', f a = some b → f a' = some b' → b = b') {b : β} :
    l.findSome? f = some b ↔ ∃ a ∈ l, f a = some b := by
  refine ⟨List.exists_of_findSome?_eq_some, ?_⟩
  rintro ⟨a, ha, hb⟩
  cases hfirst : l.findSome? f with
  | none =>
      rw [List.findSome?_eq_none_iff.1 hfirst a ha] at hb
      cases hb
  | some b' =>
      obtain ⟨a', ha', hb'⟩ := List.exists_of_findSome?_eq_some hfirst
      rw [hunique a' ha' a ha b' b hb' hb]

/-! ## The first reading -/

/-- The neighbour before what follows a text is the last character of the text; the first one is
the neighbour of the rest. -/
theorem getLast?_cons_or (c : Char) (rest : List Char) (before : Option Char) :
    (c :: rest).getLast?.or before = rest.getLast?.or (some c) := by
  cases rest with
  | nil => rfl
  | cons d rest =>
      rw [List.getLast?_cons_cons, List.getLast?_eq_some_getLast (List.cons_ne_nil d rest)]
      rfl

section First

variable {read : Option Char → List Char → Option α} {s tail : List Char}

/-- The value of `firstReading?` is the reading at the first place, or else that of the rest. -/
theorem firstReading?_cons (read : Option Char → List Char → Option α) (before : Option Char)
    (c : Char) (rest : List Char) : firstReading? read before (c :: rest) =
      (read before (c :: rest)).or (firstReading? read (some c) rest) := by
  rw [firstReading?]
  cases read before (c :: rest) with
  | none => rfl
  | some a => rfl

/-- What is read at the start of a text is its first reading. -/
theorem firstReading?_eq_some {before : Option Char} {a : α} (h : read before s = some a) :
    firstReading? read before s = some a := by
  cases s with
  | nil => exact h
  | cons c rest => rw [firstReading?_cons, h, Option.some_or]

/-- The value of `firstReading?` is the reading at the first place where something is read. -/
theorem firstReading?_eq_some_iff {before : Option Char} {a : α} :
    firstReading? read before s = some a ↔
      ∃ front back, s = front ++ back ∧ read (front.getLast?.or before) back = some a ∧
        ∀ front' back', s = front' ++ back' → front'.length < front.length →
          read (front'.getLast?.or before) back' = none := by
  induction s generalizing before with
  | nil =>
      constructor
      · intro h
        exact ⟨[], [], rfl, h, fun front' back' _ hlt => absurd hlt (Nat.not_lt_zero _)⟩
      · rintro ⟨front, back, hs, hread, -⟩
        obtain ⟨rfl, rfl⟩ := List.append_eq_nil_iff.1 hs.symm
        exact hread
  | cons c rest ih =>
      rw [firstReading?_cons, Option.or_eq_some_iff]
      constructor
      · rintro (hread | ⟨hnone, hrest⟩)
        · exact ⟨[], c :: rest, rfl, hread,
            fun front' back' _ hlt => absurd hlt (Nat.not_lt_zero _)⟩
        · obtain ⟨front, back, rfl, hread, hfirst⟩ := ih.1 hrest
          refine ⟨c :: front, back, rfl, by rwa [getLast?_cons_or], fun front' back' hs hlt => ?_⟩
          -- an earlier place is the very start or lies in the rest
          cases front' with
          | nil =>
              rw [List.nil_append] at hs
              exact hs ▸ hnone
          | cons d front' =>
              obtain ⟨rfl, hrest'⟩ := List.cons.inj hs
              rw [getLast?_cons_or]
              exact hfirst front' back' hrest' (Nat.lt_of_succ_lt_succ hlt)
      · rintro ⟨front, back, hs, hread, hfirst⟩
        cases front with
        | nil =>
            rw [List.nil_append] at hs
            exact Or.inl (hs ▸ hread)
        | cons d front =>
            obtain ⟨rfl, rfl⟩ := List.cons.inj hs
            refine Or.inr ⟨hfirst [] _ rfl (Nat.succ_pos _), ih.2 ⟨front, back, rfl, ?_, ?_⟩⟩
            · rwa [getLast?_cons_or] at hread
            · intro front' back' hs' hlt
              have hnone := hfirst (c :: front') back' (congrArg _ hs') (Nat.succ_lt_succ hlt)
              rwa [getLast?_cons_or] at hnone

/-- The first reading of a text is a reading of what follows some place of it. -/
theorem exists_of_firstReading? {before : Option Char} {a : α}
    (h : firstReading? read before s = some a) :
    ∃ front back, s = front ++ back ∧ read (front.getLast?.or before) back = some a := by
  obtain ⟨front, back, hs, hread, -⟩ := firstReading?_eq_some_iff.1 h
  exact ⟨front, back, hs, hread⟩

/-- A text has no `firstReading?` if nothing is read at any place. -/
theorem firstReading?_eq_none_iff {before : Option Char} :
    firstReading? read before s = none ↔
      ∀ front back, s = front ++ back → read (front.getLast?.or before) back = none := by
  induction s generalizing before with
  | nil =>
      constructor
      · intro h front back hs
        obtain ⟨rfl, rfl⟩ := List.append_eq_nil_iff.1 hs.symm
        exact h
      · exact fun h => h [] [] rfl
  | cons c rest ih =>
      rw [firstReading?_cons, Option.or_eq_none_iff, ih]
      constructor
      · rintro ⟨hnone, hrest⟩ front back hs
        cases front with
        | nil =>
            rw [List.nil_append] at hs
            exact hs ▸ hnone
        | cons d front =>
            obtain ⟨rfl, hs'⟩ := List.cons.inj hs
            rw [getLast?_cons_or]
            exact hrest front back hs'
      · intro h
        refine ⟨h [] _ rfl, fun front back hs => ?_⟩
        have hnone := h (c :: front) back (congrArg _ hs)
        rwa [getLast?_cons_or] at hnone

/-- A reader that takes two neighbours alike has the same first reading behind both. -/
theorem firstReading?_congr {before before' : Option Char}
    (h : ∀ s, read before s = read before' s) (s : List Char) :
    firstReading? read before s = firstReading? read before' s := by
  cases s with
  | nil => exact h []
  | cons c rest => rw [firstReading?_cons, firstReading?_cons, h]

/-- If `tail` changes no reading in `s`, then the first reading is that of `s`, or else that of
`tail`. -/
theorem firstReading?_append (hnil : ∀ before, read before [] = none)
    (hsame : ∀ before s, read before (s ++ tail) = read before s) (before : Option Char) :
    firstReading? read before (s ++ tail) =
      (firstReading? read before s).or (firstReading? read (s.getLast?.or before) tail) := by
  induction s generalizing before with
  | nil =>
      have hempty : firstReading? read before [] = none := hnil before
      rw [hempty]
      rfl
  | cons c rest ih =>
      have hhere := hsame before (c :: rest)
      rw [List.cons_append] at hhere
      rw [List.cons_append, firstReading?_cons, firstReading?_cons, hhere, ih, getLast?_cons_or,
        Option.or_assoc]

/-- Two texts without a reading make up a text without one, if what follows the first one brings in
no reading there. -/
theorem firstReading?_append_eq_none {before : Option Char}
    (hnone : ∀ before s, read before s = none → read before (s ++ tail) = none)
    (hs : firstReading? read before s = none)
    (htail : ∀ before, firstReading? read before tail = none) :
    firstReading? read before (s ++ tail) = none := by
  induction s generalizing before with
  | nil => exact htail before
  | cons c rest ih =>
      rw [firstReading?_cons, Option.or_eq_none_iff] at hs
      have hhere := hnone before (c :: rest) hs.1
      rw [List.cons_append] at hhere
      rw [List.cons_append, firstReading?_cons, hhere, Option.none_or]
      exact ih hs.2

/-- The reader finds nothing behind a word character, and any other neighbour counts as none, as
`\b` in front of a pattern has it. -/
def ReadsWordStarts (read : Option Char → List Char → Option α) : Prop :=
  ∀ before s, read before s = if before.any isWordChar then none else read none s

/-- A reader of word starts goes on behind a word that it does not read. -/
theorem ReadsWordStarts.firstReading?_append_cons (h : ReadsWordStarts read) {c : Char}
    (hc : isWordChar c = false) {word : List Char} (hword : WordLike word)
    (hread : read none (word ++ c :: s) = none) :
    firstReading? read none (word ++ c :: s) = firstReading? read none s := by
  -- no reading starts inside of the word, and behind it the character that ends it counts as none
  have hinside : ∀ d rest, isWordChar d = true → (∀ e ∈ rest, isWordChar e = true) →
      firstReading? read (some d) (rest ++ c :: s) = firstReading? read none s := by
    intro d rest hd hrest
    have hnone : ∀ s', read (some d) s' = none := by
      intro s'
      rw [h, if_pos (by simpa using hd)]
    induction rest generalizing d with
    | nil =>
        rw [List.nil_append, firstReading?_cons, hnone, Option.none_or]
        refine firstReading?_congr (fun s' => ?_) s
        rw [h, if_neg (by simp [hc])]
    | cons e rest ih =>
        have he := hrest e List.mem_cons_self
        rw [List.cons_append, firstReading?_cons, hnone, Option.none_or]
        refine ih e he (fun f hf => hrest f (List.mem_cons_of_mem _ hf)) fun s' => ?_
        rw [h, if_pos (by simpa using he)]
  cases word with
  | nil => exact absurd rfl hword.ne_nil
  | cons d rest =>
      rw [List.cons_append] at hread ⊢
      rw [firstReading?_cons, hread, Option.none_or]
      exact hinside d rest (hword.classes d List.mem_cons_self)
        fun e he => hword.classes e (List.mem_cons_of_mem _ he)

/-- A reader of word starts that reads nothing at a blank goes on behind blanks. -/
theorem ReadsWordStarts.firstReading?_blanks_append (h : ReadsWordStarts read)
    (hblank : ∀ c rest, isBlank c = true → read none (c :: rest) = none) {gap : List Char}
    (hgap : Blanks gap) (s : List Char) :
    firstReading? read none (gap ++ s) = firstReading? read none s := by
  induction gap with
  | nil => rfl
  | cons c gap ih =>
      have hc := hgap c List.mem_cons_self
      rw [List.cons_append, firstReading?_cons, hblank c _ hc, Option.none_or,
        ← ih fun d hd => hgap d (List.mem_cons_of_mem _ hd)]
      -- a blank counts as no neighbour
      refine firstReading?_congr (fun s' => ?_) (gap ++ s)
      rw [h, if_neg (by simp [(classes_of_isBlank hc).1])]

/-- A reader of word starts goes on behind a word and a gap, where it reads nothing. -/
theorem ReadsWordStarts.firstReading?_append_gap (h : ReadsWordStarts read)
    (hblank : ∀ c rest, isBlank c = true → read none (c :: rest) = none) {word gap : List Char}
    (hword : WordLike word) (hne : gap ≠ []) (hgap : Blanks gap)
    (hread : read none (word ++ (gap ++ s)) = none) :
    firstReading? read none (word ++ (gap ++ s)) = firstReading? read none s := by
  obtain ⟨c, gap, rfl⟩ := List.exists_cons_of_ne_nil hne
  obtain ⟨hc, hrest⟩ := List.forall_mem_cons.1 hgap
  rw [List.cons_append] at hread ⊢
  rw [h.firstReading?_append_cons (classes_of_isBlank hc).1 hword hread]
  exact h.firstReading?_blanks_append hblank hrest s

end First

/-! ## Pieces -/

section Pieces

variable {read : Reader α}

/-- Without a reading, `piecesFrom` gives the characters of a text. -/
theorem piecesFrom_eq_plain {before : Option Char} {s : List Char}
    (h : firstReading? read before s = none) : piecesFrom read before 0 s = s.map .plain := by
  induction s generalizing before with
  | nil => rfl
  | cons c rest ih =>
      rw [firstReading?_cons, Option.or_eq_none_iff] at h
      rw [piecesFrom, h.1, ih h.2, List.map_cons]

/-- What takes nothing from plain characters takes nothing from characters of a text. -/
theorem filterMap_map_plain {β : Type u} {f : Piece α → Option β} (h : ∀ c, f (.plain c) = none)
    (s : List Char) : (s.map .plain).filterMap f = [] := by
  rw [List.filterMap_eq_nil_iff, List.forall_mem_map]
  exact fun c _ => h c

/-- Where nothing is read, the characters in front of a text are pieces by themselves. -/
theorem piecesFrom_append_of_none {before : Option Char} {s tail : List Char}
    (h : ∀ left right, s = left ++ right → right ≠ [] →
      read (left.getLast?.or before) (right ++ tail) = none) :
    piecesFrom read before 0 (s ++ tail) =
      s.map .plain ++ piecesFrom read (s.getLast?.or before) 0 tail := by
  induction s generalizing before with
  | nil => rfl
  | cons c rest ih =>
      have hhere : read before (c :: rest ++ tail) = none := h [] _ rfl (List.cons_ne_nil c rest)
      have hrest : piecesFrom read (some c) 0 (rest ++ tail) =
          rest.map .plain ++ piecesFrom read (rest.getLast?.or (some c)) 0 tail := by
        refine ih fun left right hs hne => ?_
        have hplace := h (c :: left) right (congrArg (c :: ·) hs) hne
        rwa [getLast?_cons_or] at hplace
      rw [List.cons_append] at hhere ⊢
      rw [piecesFrom, hhere, hrest, getLast?_cons_or, List.map_cons, List.cons_append]

/-- Behind characters where nothing is read, the first reading is what is read there. -/
theorem exists_readings_append {s tail : List Char} {a : α} {n : Nat}
    (h : ∀ left right, s = left ++ right → right ≠ [] →
      read left.getLast? (right ++ tail) = none)
    (hread : read s.getLast? tail = some (a, n + 1)) (hne : tail ≠ []) :
    ∃ more, readings read (s ++ tail) = a :: more := by
  obtain ⟨c, tail, rfl⟩ := List.exists_cons_of_ne_nil hne
  have hpieces : piecesFrom read none 0 (s ++ c :: tail) =
      s.map .plain ++ piecesFrom read (s.getLast?.or none) 0 (c :: tail) :=
    piecesFrom_append_of_none (by simpa using h)
  rw [readings, pieces, hpieces, piecesFrom, Option.or_none, hread, List.filterMap_append,
    filterMap_map_plain fun _ => rfl, List.nil_append]
  exact ⟨_, rfl⟩

/-- Plain characters around the pieces of a text bring in no reading. -/
theorem readings_eq_of_pieces_eq {s t lead trail : List Char}
    (h : pieces read t = lead.map .plain ++ (pieces read s ++ trail.map .plain)) :
    readings read t = readings read s := by
  rw [readings, h, List.filterMap_append, List.filterMap_append,
    filterMap_map_plain (fun _ => rfl) lead, filterMap_map_plain (fun _ => rfl) trail,
    List.nil_append, List.append_nil, readings]

/-- A text without a reading is its own `blankOut`. -/
theorem blankOut_eq_self {s : List Char} (h : firstReading? read none s = none) :
    blankOut read s = s := by
  rw [blankOut, pieces, piecesFrom_eq_plain h, List.map_map, List.map_id'']
  intro c
  rfl

/-- The characters of a reading that is taken are passed over. -/
theorem piecesFrom_skip_append (read : Reader α) (before : Option Char) (s tail : List Char) :
    piecesFrom read before s.length (s ++ tail) =
      piecesFrom read (s.getLast?.or before) 0 tail := by
  induction s generalizing before with
  | nil => rfl
  | cons c rest ih => rw [List.length_cons, List.cons_append, piecesFrom, ih, getLast?_cons_or]

/-- The pieces of `s ++ tail` are those of its parts if no reading of `s` looks beyond it. -/
theorem piecesFrom_append {tail : List Char}
    (hsame : ∀ before c s, read before (c :: (s ++ tail)) = read before (c :: s))
    (hlength : ∀ before s a n, read before s = some (a, n) → n ≤ s.length)
    (before : Option Char) {skip : Nat} {s : List Char} (hskip : skip ≤ s.length) :
    piecesFrom read before skip (s ++ tail) =
      piecesFrom read before skip s ++ piecesFrom read (s.getLast?.or before) 0 tail := by
  induction s generalizing before skip with
  | nil =>
      obtain rfl := Nat.le_zero.1 hskip
      rfl
  | cons c rest ih =>
      rw [List.cons_append, getLast?_cons_or]
      cases skip with
      | succ skip =>
          rw [piecesFrom, piecesFrom]
          exact ih (some c) (Nat.le_of_succ_le_succ hskip)
      | zero =>
          -- what is read here ends within `s`, so the characters to skip do so too
          rw [piecesFrom, piecesFrom, hsame]
          cases hread : read before (c :: rest) with
          | none => exact congrArg _ (ih (some c) (Nat.zero_le _))
          | some found =>
              obtain ⟨a, n⟩ := found
              have hn := hlength before (c :: rest) a n hread
              cases n with
              | zero => exact congrArg _ (ih (some c) (Nat.zero_le _))
              | succ n => exact congrArg _ (ih (some c) (Nat.le_of_succ_le_succ hn))

/-- Each piece that is no plain character was read at some place of the text. -/
theorem exists_of_mem_piecesFrom {before : Option Char} {skip : Nat} {s : List Char} {a : α}
    (h : .found a ∈ piecesFrom read before skip s) :
    ∃ front back n, s = front ++ back ∧ read (front.getLast?.or before) back = some (a, n) := by
  induction s generalizing before skip with
  | nil =>
      rw [piecesFrom] at h
      cases h
  | cons c rest ih =>
      -- a place of the rest is a place of the text with `c` in front of it
      have hrest : ∀ {skip : Nat}, .found a ∈ piecesFrom read (some c) skip rest →
          ∃ front back n, c :: rest = front ++ back ∧
            read (front.getLast?.or before) back = some (a, n) := by
        intro skip hmem
        obtain ⟨front, back, n, rfl, hread⟩ := ih hmem
        exact ⟨c :: front, back, n, rfl, by rwa [getLast?_cons_or]⟩
      cases skip with
      | succ skip => exact hrest h
      | zero =>
          rw [piecesFrom] at h
          split at h
          · rename_i a' n hread
            rcases List.mem_cons.1 h with hhere | hmem
            · cases hhere
              exact ⟨[], c :: rest, n + 1, rfl, hread⟩
            · exact hrest hmem
          · rcases List.mem_cons.1 h with hhere | hmem
            · cases hhere
            · exact hrest hmem

/-- What is read in a text is read at some place of it. -/
theorem exists_of_mem_readings {s : List Char} {a : α} (h : a ∈ readings read s) :
    ∃ front back n, s = front ++ back ∧ read front.getLast? back = some (a, n) := by
  rw [readings, List.mem_filterMap] at h
  obtain ⟨piece, hpiece, ha⟩ := h
  cases piece with
  | plain c => cases ha
  | found b =>
      cases ha
      obtain ⟨front, back, n, hs, hread⟩ := exists_of_mem_piecesFrom hpiece
      rw [Option.or_none] at hread
      exact ⟨front, back, n, hs, hread⟩

end Pieces

/-! ## Two texts side by side -/

/-- The `readings` of a text whose first `skip` characters belong to a reading already taken. -/
def readingsFrom (read : Reader α) (before : Option Char) (skip : Nat) (s : List Char) : List α :=
  (piecesFrom read before skip s).filterMap fun
    | .plain _ => none
    | .found a => some a

/-- At each place of two texts of one length the reader takes up as many characters, and `f` makes
the same of what it gives. -/
inductive Agree {β : Type u} (read : Reader α) (f : α → β) :
    Option Char → Option Char → List Char → List Char → Prop
  | nil {before before' : Option Char} : Agree read f before before' [] []
  | cons {before before' : Option Char} {c c' : Char} {s s' : List Char}
      (here : (read before (c :: s)).map (Prod.map f id) =
        (read before' (c' :: s')).map (Prod.map f id))
      (rest : Agree read f (some c) (some c') s s') :
      Agree read f before before' (c :: s) (c' :: s')

section Side

variable {β : Type u} {read : Reader α} {f : α → β}

theorem Agree.readingsFrom_eq {before before' : Option Char} {s s' : List Char}
    (h : Agree read f before before' s s') (skip : Nat) :
    (readingsFrom read before skip s).map f = (readingsFrom read before' skip s').map f := by
  induction h generalizing skip with
  | nil =>
      rw [readingsFrom, readingsFrom, piecesFrom, piecesFrom]
  | @cons before before' c c' s s' here rest ih =>
      cases skip with
      | succ skip => exact ih skip
      | zero =>
          rw [readingsFrom, readingsFrom, piecesFrom, piecesFrom]
          cases hread : read before (c :: s) with
          | none =>
              rw [hread] at here
              rw [Option.map_eq_none_iff.1 here.symm]
              exact ih 0
          | some found =>
              -- readings that agree are of the same length, so as much is skipped in both texts
              obtain ⟨a, n⟩ := found
              rw [hread] at here
              obtain ⟨⟨a', n'⟩, hread', hsame⟩ := Option.map_eq_some_iff.1 here.symm
              obtain ⟨hvalue, rfl⟩ := Prod.mk.inj hsame
              rw [hread']
              cases n' with
              | zero => exact ih 0
              | succ n => exact congrArg₂ List.cons hvalue.symm (ih n)

/-- Where the reader agrees at each place, the readings of two texts are the same to `f`. -/
theorem Agree.readings_eq {s s' : List Char} (h : Agree read f none none s s') :
    (readings read s).map f = (readings read s').map f :=
  h.readingsFrom_eq 0

end Side

end FileClerk.Text
