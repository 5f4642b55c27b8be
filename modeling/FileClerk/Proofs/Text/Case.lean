import Mathlib.Data.List.TakeWhile
import FileClerk.Text.Basic
import FileClerk.Text.Case

/-!
# Lower-case forms and digits

No character vanishes from a lower-case or an upper-case form (`lower_eq_nil_iff`,
`upperChar_ne_nil`). Decimal digits have no letter case: they stay as they are, and no other
character turns into one (`lowerChar_of_isDigit`, `isDigit_of_mem_lowerChar`). A run of digits
stands in the lower-case form only where it stands in the text, so the numbers in a command are as
long as the numbers in the text that is read (`ShortNumbers.lower`).
-/

set_option autoImplicit false

namespace FileClerk.Text

/-! ## Forms are not empty -/

theorem mapCase_ne_nil (runs : List CaseRun) {expansions : List (Nat × List Nat)}
    (h : ∀ e ∈ expansions, e.2 ≠ []) (c : Char) : mapCase runs expansions c ≠ [] := by
  -- whatever the table gives is listed in one of its entries
  have hne : ∀ (entries : List (Nat × List Nat)) (n : Nat) (image : List Nat),
      (∀ e ∈ entries, e.2 ≠ []) → expansionOf entries n = some image → image ≠ [] := by
    intro entries
    induction entries with
    | nil =>
        intro n image _ hsome
        simp [expansionOf] at hsome
    | cons entry rest ih =>
        intro n image hall hsome
        simp only [expansionOf] at hsome
        split at hsome
        · cases hsome
          exact hall entry List.mem_cons_self
        · exact ih n image (fun e he => hall e (List.mem_cons_of_mem _ he)) hsome
  unfold mapCase
  split
  · rename_i image hsome
    simpa using hne expansions c.toNat image h hsome
  · simp

theorem lowerChar_ne_nil (c : Char) : lowerChar c ≠ [] := by
  unfold lowerChar
  split
  · simp
  · exact mapCase_ne_nil lowerRuns (by decide) c

theorem upperChar_ne_nil (c : Char) : upperChar c ≠ [] := by
  unfold upperChar
  split
  · simp
  · exact mapCase_ne_nil upperRuns (by decide) c

/-- Only the empty text has an empty `lower`. -/
theorem lower_eq_nil_iff (s : List Char) : lower s = [] ↔ s = [] := by
  cases s with
  | nil => simp [lower, lowerAfter]
  | cons c rest =>
      simp only [lower, lowerAfter, List.append_eq_nil_iff, reduceCtorEq, iff_false, not_and]
      intro hnil
      exfalso
      split at hnil
      · cases hnil
      · exact lowerChar_ne_nil c hnil

/-! ## Trimmed texts -/

/-- A text has an empty `trim` when it is blank. -/
theorem trim_eq_nil_iff (s : List Char) : trim s = [] ↔ ∀ c ∈ s, isBlank c = true := by
  simp only [trim, List.reverse_eq_nil_iff, List.dropWhile_eq_nil_iff, List.mem_reverse]
  constructor
  · intro h
    cases hdrop : s.dropWhile isBlank with
    | nil => exact List.dropWhile_eq_nil_iff.1 hdrop
    | cons first rest =>
        -- the first character that is left is no blank
        have hne : s.dropWhile isBlank ≠ [] := by simp [hdrop]
        have hfirst := List.head_dropWhile_not isBlank hne
        rw [h _ (List.head_mem hne)] at hfirst
        cases hfirst
  · intro h c hc
    exact h c ((List.dropWhile_suffix isBlank).subset hc)

theorem trim_infix_self (s : List Char) : trim s <:+: s := by
  have hright : trim s <+: s.dropWhile isBlank := by
    rw [trim, ← List.reverse_suffix, List.reverse_reverse]
    exact List.dropWhile_suffix isBlank
  exact hright.isInfix.trans (List.dropWhile_suffix isBlank).isInfix

/-! ## Digits -/

/-- What holds of the first 128 code points holds of every ASCII character. -/
theorem forall_ascii {P : Char → Prop} (h : ∀ n < 128, P (Char.ofNat n)) {c : Char}
    (hc : c.toNat < 128) : P c := by
  have hP := h c.toNat hc
  rwa [Char.ofNat_toNat] at hP

/-- The code points of the digit zero in all scripts. -/
def allZeros : List Nat := 48 :: digitZeros

theorem le_of_mem_digitZeros : ∀ start ∈ digitZeros, 128 ≤ start := by
  decide

theorem le_of_mem_allZeros : ∀ start ∈ allZeros, 48 ≤ start := by
  decide

/-- The characters of `isDigit` are the ten code points from each of `allZeros` on. -/
theorem isDigit_iff (c : Char) :
    isDigit c = true ↔ ∃ start ∈ allZeros, start ≤ c.toNat ∧ c.toNat ≤ start + 9 := by
  by_cases h : c.toNat < 128
  · have hascii : isDigit c = true ↔ 48 ≤ c.toNat ∧ c.toNat ≤ 57 :=
      forall_ascii (P := fun c => isDigit c = true ↔ 48 ≤ c.toNat ∧ c.toNat ≤ 57) (by decide) h
    rw [hascii]
    constructor
    · intro hle
      exact ⟨48, List.mem_cons_self, hle⟩
    · rintro ⟨start, hstart, hle⟩
      rcases List.mem_cons.1 hstart with rfl | hstart
      · exact hle
      · have := le_of_mem_digitZeros start hstart
        omega
  · simp only [isDigit, digitValue?, if_neg h, List.findSome?_isSome_iff]
    constructor
    · rintro ⟨start, hstart, hsome⟩
      refine ⟨start, List.mem_cons_of_mem _ hstart, ?_⟩
      split at hsome
      · rename_i hle
        simpa using hle
      · cases hsome
    · rintro ⟨start, hstart, hle, hle'⟩
      rcases List.mem_cons.1 hstart with rfl | hstart
      · omega
      · exact ⟨start, hstart, by simp [hle, hle']⟩

/-- The code points from the first of a stretch to its last lie outside `first` to `last`. -/
def liesOutside (first last : Nat) (stretch : Nat × Nat) : Bool :=
  Nat.blt stretch.2 first || Nat.blt last stretch.1

/-- The first and the last code point that a run moves. -/
def CaseRun.source (r : CaseRun) : Nat × Nat := (r.first, r.last)

/-- The code points that a run moves its first and its last one to. -/
def CaseRun.image (r : CaseRun) : Nat × Nat :=
  (((r.first : Int) + r.shift).toNat, ((r.last : Int) + r.shift).toNat)

/-- No run of `lowerRuns` touches the digits of any script. -/
theorem lowerRuns_outside_digits :
    ([CaseRun.source, CaseRun.image].all fun side => lowerRuns.all fun r =>
      allZeros.all fun start => liesOutside start (start + 9) (side r)) = true := by
  -- each run is compared with the digits of each script, and only the kernel is fast enough
  decide +kernel

theorem CaseRun.covers_iff (r : CaseRun) (n : Nat) :
    r.covers n = true ↔ r.first ≤ n ∧ n ≤ r.last ∧ (n - r.first) % r.step = 0 := by
  simp only [CaseRun.covers, Bool.and_eq_true, decide_eq_true_eq, beq_iff_eq, and_assoc]

/-- A mapping moves a code point by one of its runs that covers it, or leaves it. -/
theorem moveBy_cases (runs : List CaseRun) (n : Nat) :
    moveBy runs n = n ∨
      ∃ r ∈ runs, r.covers n = true ∧ moveBy runs n = ((n : Int) + r.shift).toNat := by
  induction runs with
  | nil => exact Or.inl rfl
  | cons r rest ih =>
      by_cases h : r.covers n = true
      · exact Or.inr ⟨r, List.mem_cons_self, h, by simp [moveBy, h]⟩
      · simp only [moveBy, if_neg h]
        rcases ih with ih | ⟨r', hr', hmoved⟩
        · exact Or.inl ih
        · exact Or.inr ⟨r', List.mem_cons_of_mem _ hr', hmoved⟩

/-- Lower-case forms leave the digits of a script in their place and bring nothing there. -/
theorem moveBy_lowerRuns_digit {start : Nat} (hstart : start ∈ allZeros) {n : Nat}
    (h : (start ≤ n ∧ n ≤ start + 9) ∨
      (start ≤ moveBy lowerRuns n ∧ moveBy lowerRuns n ≤ start + 9)) :
    moveBy lowerRuns n = n := by
  rcases moveBy_cases lowerRuns n with hself | ⟨r, hr, hcovers, hmove⟩
  · exact hself
  · obtain ⟨hfirst, hlast, -⟩ := (r.covers_iff n).1 hcovers
    have hpos := le_of_mem_allZeros start hstart
    have hall := lowerRuns_outside_digits
    simp only [List.all_eq_true] at hall
    have hsource := hall CaseRun.source (by simp) r hr start hstart
    have himage := hall CaseRun.image (by simp) r hr start hstart
    simp only [liesOutside, CaseRun.source, CaseRun.image, Bool.or_eq_true, Nat.blt_eq]
      at hsource himage
    omega

/-- A digit is its own `lowerChar`. -/
theorem lowerChar_of_isDigit {c : Char} (h : isDigit c = true) : lowerChar c = [c] := by
  by_cases hascii : c.toNat < 128
  · revert h
    exact forall_ascii (P := fun c => isDigit c = true → lowerChar c = [c]) (by decide) hascii
  · obtain ⟨start, hstart, hle⟩ := (isDigit_iff c).1 h
    -- only the code point 304 has a lower-case form of more than one character
    have hexpansion : ∀ z ∈ allZeros, 304 < z ∨ z + 9 < 304 := by decide
    have hne : 304 ≠ c.toNat := by
      have := hexpansion start hstart
      omega
    have hnone : expansionOf lowerExpansions c.toNat = none := by
      simp [lowerExpansions, expansionOf, hne]
    rw [lowerChar, if_neg hascii, mapCase, hnone]
    simp [moveBy_lowerRuns_digit hstart (Or.inl hle)]

/-- What stands in a lower-case form beyond ASCII: one of the two characters of the only form that
has several, the character zero for a number that is no code point, or the image of the character
under the runs. -/
theorem mem_lowerChar_cases {c d : Char} (hascii : ¬ c.toNat < 128) (hd : d ∈ lowerChar c) :
    d.toNat = 105 ∨ d.toNat = 775 ∨ d.toNat = 0 ∨
      (c.toNat ≠ 304 ∧ d.toNat = moveBy lowerRuns c.toNat) := by
  rw [lowerChar, if_neg hascii, mapCase] at hd
  split at hd
  · -- 304 is the only character whose lower-case form is listed
    rename_i image himage
    have himage' : image = [105, 775] := by
      simp only [lowerExpansions, expansionOf] at himage
      split at himage
      · exact (Option.some.inj himage).symm
      · cases himage
    simp only [himage', List.map_cons, List.map_nil, List.mem_cons, List.not_mem_nil,
      or_false] at hd
    rcases hd with rfl | rfl
    · exact Or.inl rfl
    · exact Or.inr (Or.inl rfl)
  · rename_i hnone
    have hne : c.toNat ≠ 304 := by
      rintro heq
      rw [heq] at hnone
      cases hnone
    rw [List.mem_singleton] at hd
    by_cases hvalid : (moveBy lowerRuns c.toNat).isValidChar
    · refine Or.inr (Or.inr (Or.inr ⟨hne, ?_⟩))
      rw [hd, Char.ofNat, dif_pos hvalid]
      rfl
    · refine Or.inr (Or.inr (Or.inl ?_))
      rw [hd, Char.ofNat, dif_neg hvalid]
      rfl

/-- Only a digit has a digit in its `lowerChar`. -/
theorem isDigit_of_mem_lowerChar {c d : Char} (hd : d ∈ lowerChar c) (h : isDigit d = true) :
    isDigit c = true := by
  by_cases hascii : c.toNat < 128
  · have hall : ((lowerChar c).all fun d => isDigit d == isDigit c) = true :=
      forall_ascii (P := fun c => ((lowerChar c).all fun d => isDigit d == isDigit c) = true)
        (by decide) hascii
    have hsame : isDigit d = isDigit c := by
      simpa using List.all_eq_true.1 hall d hd
    rw [← hsame, h]
  · obtain ⟨start, hstart, hle, hle'⟩ := (isDigit_iff d).1 h
    have hpos := le_of_mem_allZeros start hstart
    -- neither the letter and the dot of the long form nor the character zero is a digit
    have houtside : ∀ z ∈ allZeros, 105 < z ∨ z + 9 < 105 := by decide
    have houtside' : ∀ z ∈ allZeros, 775 < z ∨ z + 9 < 775 := by decide
    have := houtside start hstart
    have := houtside' start hstart
    obtain hplace | hplace | hplace | ⟨-, hplace⟩ := mem_lowerChar_cases hascii hd
    · omega
    · omega
    · omega
    · have hself := moveBy_lowerRuns_digit hstart (n := c.toNat) (Or.inr (by omega))
      exact (isDigit_iff c).2 ⟨start, hstart, by omega⟩

/-! ## Runs of digits -/

/-- Every run of digits in the text is shorter than `limit`. -/
def ShortNumbers (limit : Nat) (text : List Char) : Prop :=
  ∀ run, run <:+: text → (∀ c ∈ run, isDigit c = true) → run.length < limit

theorem ShortNumbers.of_length_lt {limit : Nat} {text : List Char} (h : text.length < limit) :
    ShortNumbers limit text :=
  fun _ hrun _ => Nat.lt_of_le_of_lt hrun.length_le h

/-- No run of digits is longer than all digits of the text together. -/
theorem ShortNumbers.of_countP_lt {limit : Nat} {text : List Char}
    (h : text.countP isDigit < limit) : ShortNumbers limit text := by
  intro run hrun hdigits
  rw [← List.countP_eq_length.2 hdigits]
  exact Nat.lt_of_le_of_lt (hrun.sublist.countP_le) h

/-- The lower-case form of the first character: a digit by itself, or characters of which none is
a digit. -/
theorem lowerAfter_cons_cases (before : List Char) (c : Char) (rest : List Char) :
    ∃ head, head ≠ [] ∧ lowerAfter before (c :: rest) = head ++ lowerAfter (c :: before) rest ∧
      ((isDigit c = true ∧ head = [c]) ∨ ∀ d ∈ head, isDigit d = false) := by
  by_cases hsigma : c = 'Σ'
  · -- the form of a capital sigma depends on its neighbours, but it is a letter either way
    refine ⟨[if endsWord before rest then 'ς' else 'σ'], by simp, by simp [lowerAfter, hsigma], ?_⟩
    refine Or.inr fun d hd => ?_
    rw [List.mem_singleton] at hd
    rw [hd]
    split
    · decide
    · decide
  · refine ⟨lowerChar c, lowerChar_ne_nil c, by simp [lowerAfter, hsigma], ?_⟩
    cases hdigit : isDigit c with
    | true => exact Or.inl ⟨rfl, lowerChar_of_isDigit hdigit⟩
    | false =>
        refine Or.inr fun d hd => ?_
        cases hd' : isDigit d with
        | false => rfl
        | true => rw [← hdigit, isDigit_of_mem_lowerChar hd hd']

/-- Digits at the start of a lower-case form stand at the start of the text. -/
theorem prefix_of_prefix_lowerAfter {run : List Char} (hrun : ∀ c ∈ run, isDigit c = true)
    (before s : List Char) (h : run <+: lowerAfter before s) : run <+: s := by
  induction s generalizing before run with
  | nil => exact h
  | cons c rest ih =>
      cases run with
      | nil => exact List.nil_prefix
      | cons d more =>
          obtain ⟨head, hne, heq, hhead⟩ := lowerAfter_cons_cases before c rest
          rw [heq] at h
          rcases hhead with ⟨-, rfl⟩ | hplain
          · -- a digit is its own form, and the run goes on behind it
            rw [List.singleton_append, List.cons_prefix_cons] at h
            rw [List.cons_prefix_cons]
            exact ⟨h.1, ih (fun e he => hrun e (List.mem_cons_of_mem _ he)) (c :: before) h.2⟩
          · -- the first character of the form is no digit, the first one of the run is
            obtain ⟨e, head', rfl⟩ := List.exists_cons_of_ne_nil hne
            rw [List.cons_append, List.cons_prefix_cons] at h
            have hfalse := hplain e List.mem_cons_self
            rw [← h.1, hrun d List.mem_cons_self] at hfalse
            cases hfalse

/-- A run of digits behind other characters stands in what follows them. -/
theorem infix_of_infix_append {run : List Char} (hrun : ∀ c ∈ run, isDigit c = true)
    {head : List Char} (hhead : ∀ d ∈ head, isDigit d = false) {tail : List Char}
    (h : run <:+: head ++ tail) : run <:+: tail := by
  induction head with
  | nil => exact h
  | cons d more ih =>
      have ih' := ih fun e he => hhead e (List.mem_cons_of_mem _ he)
      rw [List.cons_append, List.infix_cons_iff] at h
      rcases h with hfront | hinside
      · cases run with
        | nil => exact List.nil_infix
        | cons e run' =>
            rw [List.cons_prefix_cons] at hfront
            have hfalse := hhead d List.mem_cons_self
            rw [← hfront.1, hrun e List.mem_cons_self] at hfalse
            cases hfalse
      · exact ih' hinside

/-- A run of digits in `lowerAfter` is a run of digits in the text. -/
theorem infix_of_infix_lowerAfter {run : List Char} (hrun : ∀ c ∈ run, isDigit c = true)
    (before s : List Char) (h : run <:+: lowerAfter before s) : run <:+: s := by
  induction s generalizing before with
  | nil => exact h
  | cons c rest ih =>
      obtain ⟨head, -, heq, hhead⟩ := lowerAfter_cons_cases before c rest
      rcases hhead with ⟨-, rfl⟩ | hplain
      · -- the run starts at this digit or stands behind it
        have h' := h
        rw [heq, List.singleton_append, List.infix_cons_iff] at h'
        rcases h' with hfront | hinside
        · have hstart : run <+: lowerAfter before (c :: rest) := by
            rw [heq]
            exact hfront
          exact (prefix_of_prefix_lowerAfter hrun before (c :: rest) hstart).isInfix
        · exact List.infix_cons (ih (c :: before) hinside)
      · rw [heq] at h
        exact List.infix_cons (ih (c :: before) (infix_of_infix_append hrun hplain h))

/-- A text with `ShortNumbers` has them in lower case as well. -/
theorem ShortNumbers.lower {limit : Nat} {text : List Char} (h : ShortNumbers limit text) :
    ShortNumbers limit (lower text) :=
  fun run hrun hdigits => h run (infix_of_infix_lowerAfter hdigits [] text hrun) hdigits

theorem ShortNumbers.mono {limit : Nat} {part text : List Char} (h : ShortNumbers limit text)
    (hpart : part <:+: text) : ShortNumbers limit part :=
  fun run hrun hdigits => h run (hrun.trans hpart) hdigits

end FileClerk.Text
