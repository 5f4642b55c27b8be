import FileClerk.Proofs.Number.Digits
import FileClerk.Proofs.Number.Nearest
import FileClerk.Proofs.Number.WholePart
import FileClerk.Proofs.Text.Split
import FileClerk.Rendering

/-!
# Shown sizes read back

The text of a size is a numeral and a unit. Read back (`readSize?`), it shows the multiple of one
place of the unit that is nearest to the size (`shows_shownSize`), in the largest unit that the size
reaches. So what is shown is off by at most half of a place, and since a whole number of units stays
as it is, the order of sizes is kept also where the unit changes (`shown_accurate_monotone`).

The unit goes by the size itself and not by what is shown of it. A size just below the next unit is
shown as 1024 of the unit below (`numeral_lt_iff`).
-/

set_option autoImplicit false

namespace FileClerk.Rendering

open FileClerk.Text FileClerk.Number FileClerk.Command

/-! ## Reading -/

/-- A size as a reader takes it from a text: a numeral and a unit. -/
structure ShownSize where
  numeral : ℚ
  unit : SizeUnit
  deriving DecidableEq

/-- The number of bytes that is shown: `numeral * unit.bytes`. -/
def ShownSize.bytes (s : ShownSize) : ℚ := s.numeral * s.unit.bytes

/-- The number that digits with at most one point among them stand for. -/
def pointed? (s : List Char) : Option ℚ :=
  match splitAtChar '.' s with
  | [whole] => do
    let n ← natural? 10 whole
    return n
  | [whole, fraction] => do
    let n ← natural? 10 whole
    let m ← natural? 10 fraction
    return n + m / 10 ^ fraction.length
  | _ => none

/-- The name of a unit in texts. -/
def unitName (unit : SizeUnit) : List Char := unit.letters.map Char.toUpper

/-- The size in a text of a numeral and the name of a unit, with a space between them, as
`_format_size` writes it. -/
def readSize? (text : String) : Option ShownSize :=
  match splitAtChar ' ' text.toList with
  | [digits, name] => do
    let numeral ← pointed? digits
    let unit ← SizeUnit.all.find? fun unit => unitName unit == name
    return ⟨numeral, unit⟩
  | _ => none

/-- Marks are no digits. -/
theorem notMem_toDigits {mark : Char} (hmark : mark.isDigit = false) (n : Nat) :
    mark ∉ Nat.toDigits 10 n := by
  intro hmem
  rw [Nat.isDigit_of_mem_toDigits (by decide) (by decide) hmem] at hmark
  cases hmark

/-- A whole number is read as it is written. -/
theorem pointed?_whole (n : Nat) : pointed? (Nat.toDigits 10 n) = some (n : ℚ) := by
  have hread : natural? 10 (Nat.toDigits 10 n) = some n :=
    natural?_toDigits (by decide) (by decide) n
  rw [pointed?, splitAtChar_eq_singleton (notMem_toDigits (by decide) n)]
  simp only [hread]
  rfl

/-- A number with one place behind the point is read as it is written. -/
theorem pointed?_tenths (n : Nat) :
    pointed? (Nat.toDigits 10 (n / 10) ++ '.' :: Nat.toDigits 10 (n % 10)) = some (n / 10 : ℚ) := by
  have hread : ∀ k, natural? 10 (Nat.toDigits 10 k) = some k :=
    natural?_toDigits (by decide) (by decide)
  have hplace : (Nat.toDigits 10 (n % 10)).length = 1 := by
    rw [Nat.toDigits_of_lt_base (Nat.mod_lt n (by decide))]
    rfl
  have hparts : (n : ℚ) = 10 * (n / 10 : ℕ) + (n % 10 : ℕ) := by
    exact_mod_cast (Nat.div_add_mod n 10).symm
  rw [pointed?, splitAtChar_append (notMem_toDigits (by decide) _),
    splitAtChar_eq_singleton (notMem_toDigits (by decide) _)]
  simp only [hread, hplace, hparts]
  refine congrArg some ?_
  field_simp

/-- A numeral and the name of a unit are read as they are written. -/
theorem readSize?_append {digits : List Char} {numeral : ℚ} (hspace : ' ' ∉ digits)
    (h : pointed? digits = some numeral) (unit : SizeUnit) {text : String}
    (htext : text.toList = digits ++ ' ' :: unitName unit) :
    readSize? text = some ⟨numeral, unit⟩ := by
  have hname : splitAtChar ' ' (unitName unit) = [unitName unit] := by
    cases unit <;> rfl
  have hunit : (SizeUnit.all.find? fun u => unitName u == unitName unit) = some unit := by
    cases unit <;> rfl
  rw [readSize?, htext, splitAtChar_append hspace, hname]
  simp only [h, hunit]
  rfl

/-! ## What is shown -/

/-- The number of places behind the point: bytes are whole. -/
def places : SizeUnit → Nat
  | .b => 0
  | _ => 1

/-- The largest unit that `n` bytes reach. -/
def unitOf (n : Nat) : SizeUnit :=
  if n < 1024 then .b
  else if n < 1024 * 1024 then .kb
  else if n < 1024 * 1024 * 1024 then .mb
  else .gb

/-- The size `n` in `unit`, rounded to its places. -/
def sizeIn (unit : SizeUnit) (n : Nat) : ShownSize where
  numeral := roundHalfEven (n * 10 ^ places unit) unit.bytes / 10 ^ places unit
  unit := unit

/-- The size `n` in the unit that it is shown in, `unitOf n`. -/
def shownSize (n : Nat) : ShownSize := sizeIn (unitOf n) n

/-- The text `formatSize n` is there, and `readSize?` takes `size` from it. -/
def Shows (n : Nat) (size : ShownSize) : Prop :=
  ∃ text, formatSize n = .ok text ∧ readSize? text = some size

/-- A number of bytes is read as it is written. -/
theorem readSize?_bytes (n : Nat) : readSize? (toString n ++ " B") = some ⟨n, .b⟩ := by
  apply readSize?_append (notMem_toDigits (by decide) n) (pointed?_whole n) .b
  rw [String.toList_append]
  exact congrArg (· ++ _) String.toList_ofList

/-- A number of another unit is read as it is written, with one place. -/
theorem readSize?_oneDecimal (num den : Nat) (unit : SizeUnit) {name : String}
    (hname : name.toList = ' ' :: unitName unit) :
    readSize? (oneDecimal num den ++ name) = some ⟨roundHalfEven (num * 10) den / 10, unit⟩ := by
  refine readSize?_append ?_ (pointed?_tenths (roundHalfEven (num * 10) den)) unit ?_
  · have hdigits : ∀ n, ' ' ∉ Nat.toDigits 10 n := notMem_toDigits (by decide)
    simp [hdigits]
  · have hnumber : ∀ n : Nat, (toString n).toList = Nat.toDigits 10 n :=
      fun n => String.toList_ofList
    simp only [oneDecimal, String.toList_append, hnumber, hname, List.append_assoc]
    rfl

/-- Bytes are not rounded. -/
theorem sizeIn_b (n : Nat) : sizeIn .b n = ⟨n, .b⟩ := by
  have hround : roundHalfEven (n * 1) 1 = n := roundHalfEven_mul Nat.one_pos n
  rw [Nat.mul_one] at hround
  simp [sizeIn, places, SizeUnit.bytes, hround]

/-- The text `sizeText` of a size, whose exact value may be given by any quotient, is read as
`shownSize`. -/
theorem readSize?_sizeText {k : Nat} (hk : 0 < k) (n : Nat) :
    readSize? (sizeText ((n * k : Nat) : Int) k) = some (shownSize n) := by
  have hsign : ¬((n * k : Nat) : Int) < 0 := by omega
  have hlt : ∀ bound, n * k < bound * k ↔ n < bound := fun bound => Nat.mul_lt_mul_right hk
  have hround : ∀ bytes, roundHalfEven (n * k * 10) (k * bytes) = roundHalfEven (n * 10) bytes := by
    intro bytes
    rw [Nat.mul_right_comm, Nat.mul_comm k, roundHalfEven_mul_right hk]
  simp only [sizeText, if_neg hsign, Int.natAbs_natCast, hlt, shownSize, unitOf, Nat.mul_assoc k]
  split
  · rw [roundHalfEven_mul hk, readSize?_bytes, sizeIn_b]
  · split
    · rw [readSize?_oneDecimal _ _ .kb rfl, hround, sizeIn]
      simp only [places, SizeUnit.bytes, pow_one]
    · split
      · rw [readSize?_oneDecimal _ _ .mb rfl, hround, sizeIn]
        simp only [places, SizeUnit.bytes, pow_one]
      · rw [readSize?_oneDecimal _ _ .gb rfl, hround, sizeIn]
        simp only [places, SizeUnit.bytes, pow_one]

/-- A size of at most 53 binary digits has a text that `Shows` the `shownSize`. -/
theorem shows_shownSize {n : Nat} (h : n < 2 ^ 53) : Shows n (shownSize n) := by
  obtain ⟨den, hden, hratio⟩ := Binary64.ratio?_ofInt h
  refine ⟨sizeText ((n * den : Nat) : Int) den, ?_, readSize?_sizeText hden n⟩
  rw [formatSize, hratio]

/-! ## Accuracy and order -/

section Order

variable {m n : Nat} {unit : SizeUnit}

theorem bytes_pos (unit : SizeUnit) : 0 < unit.bytes := by
  cases unit <;> decide

/-- The `bytes` of `sizeIn unit n` are at most half of a place away from `n`. -/
theorem abs_bytes_sizeIn_sub_le (unit : SizeUnit) (n : Nat) :
    |(sizeIn unit n).bytes - n| ≤ unit.bytes / (2 * 10 ^ places unit) := by
  have hunit : (0 : ℚ) < unit.bytes := Nat.cast_pos.2 (bytes_pos unit)
  have hround := abs_roundHalfEven_sub_le (n * 10 ^ places unit) (bytes_pos unit)
  have hscale : (sizeIn unit n).bytes - n =
      (roundHalfEven (n * 10 ^ places unit) unit.bytes - (n * 10 ^ places unit : ℕ) / unit.bytes) *
        (unit.bytes / 10 ^ places unit) := by
    rw [ShownSize.bytes, sizeIn]
    push_cast
    field_simp
  calc |(sizeIn unit n).bytes - n|
      = |(roundHalfEven (n * 10 ^ places unit) unit.bytes : ℚ) -
          (n * 10 ^ places unit : ℕ) / unit.bytes| * (unit.bytes / 10 ^ places unit) := by
        rw [hscale, abs_mul, abs_of_pos (a := (unit.bytes : ℚ) / _) (by positivity)]
    _ ≤ 1 / 2 * (unit.bytes / 10 ^ places unit) :=
        mul_le_mul_of_nonneg_right hround (by positivity)
    _ = unit.bytes / (2 * 10 ^ places unit) := by
        field_simp

/-- In one unit `bytes` is monotone. -/
theorem bytes_sizeIn_mono (h : m ≤ n) (unit : SizeUnit) :
    (sizeIn unit m).bytes ≤ (sizeIn unit n).bytes := by
  have hround : roundHalfEven (m * 10 ^ places unit) unit.bytes ≤
      roundHalfEven (n * 10 ^ places unit) unit.bytes :=
    roundHalfEven_mono (Nat.mul_le_mul_right _ h) unit.bytes
  simp only [ShownSize.bytes, sizeIn]
  gcongr

/-- A whole number of units is shown as it is. -/
theorem bytes_sizeIn_mul (unit : SizeUnit) (k : Nat) :
    (sizeIn unit (k * unit.bytes)).bytes = (k * unit.bytes : ℕ) := by
  have hround : roundHalfEven (k * unit.bytes * 10 ^ places unit) unit.bytes =
      k * 10 ^ places unit := by
    rw [Nat.mul_right_comm, roundHalfEven_mul (bytes_pos unit)]
  rw [ShownSize.bytes, sizeIn, hround]
  push_cast
  field_simp

/-- Of two sizes the larger one is shown in the same unit, or the unit that it reaches lies
between the two. -/
theorem unitOf_cases (h : m ≤ n) : unitOf m = unitOf n ∨
    m ≤ 1024 * (unitOf m).bytes ∧ 1024 * (unitOf m).bytes ≤ (unitOf n).bytes ∧
      (unitOf n).bytes ≤ n := by
  simp only [unitOf]
  -- where the units are the same, nothing else is asked for
  split_ifs <;> simp only [SizeUnit.bytes, false_or, true_or] <;> omega

/-- The `bytes` of `shownSize` are monotone, also from one unit to the next. -/
theorem bytes_shownSize_mono (h : m ≤ n) : (shownSize m).bytes ≤ (shownSize n).bytes := by
  rcases unitOf_cases h with hsame | ⟨hm, hunits, hn⟩
  · rw [shownSize, shownSize, hsame]
    exact bytes_sizeIn_mono h _
  · -- both the end of the smaller unit and the start of the larger one are shown as they are
    have hstart : (sizeIn (unitOf n) (unitOf n).bytes).bytes = (unitOf n).bytes := by
      have hone := bytes_sizeIn_mul (unitOf n) 1
      rwa [Nat.one_mul] at hone
    calc (shownSize m).bytes ≤ (sizeIn (unitOf m) (1024 * (unitOf m).bytes)).bytes :=
          bytes_sizeIn_mono hm _
      _ = (1024 * (unitOf m).bytes : ℕ) := bytes_sizeIn_mul _ _
      _ ≤ (unitOf n).bytes := Nat.cast_le.2 hunits
      _ = (sizeIn (unitOf n) (unitOf n).bytes).bytes := hstart.symm
      _ ≤ (shownSize n).bytes := bytes_sizeIn_mono hn _

/-- The size that is shown is at most 0.05 of the unit away from `n`, and it is `n` itself if the
unit is the byte. -/
structure ShownSize.IsAccurate (size : ShownSize) (n : Nat) : Prop where
  near : |size.bytes - n| ≤ 5 / 100 * size.unit.bytes
  whole : size.unit = .b → size.bytes = n

theorem isAccurate_shownSize (n : Nat) : (shownSize n).IsAccurate n := by
  have hexact : ∀ unit, unit = .b → (sizeIn unit n).bytes = n := by
    rintro unit rfl
    rw [sizeIn_b, ShownSize.bytes]
    exact mul_one _
  refine ⟨?_, hexact (unitOf n)⟩
  have hunit : (0 : ℚ) < (unitOf n).bytes := Nat.cast_pos.2 (bytes_pos _)
  by_cases hb : unitOf n = .b
  · rw [shownSize, hexact _ hb, sub_self, abs_zero]
    exact mul_nonneg (by norm_num) hunit.le
  · have hplaces : places (unitOf n) = 1 := by
      cases hu : unitOf n with
      | b => exact absurd hu hb
      | kb => rfl
      | mb => rfl
      | gb => rfl
    have hnear := abs_bytes_sizeIn_sub_le (unitOf n) n
    rw [hplaces] at hnear
    calc |(shownSize n).bytes - n| ≤ (unitOf n).bytes / (2 * 10 ^ 1) := hnear
      _ = 5 / 100 * (unitOf n).bytes := by ring

/-- For `m ≤ n` the sizes that `formatSize` shows are in this order, and each of them `IsAccurate`.
-/
theorem shown_accurate_monotone {m n : Nat} (hle : m ≤ n) (hn : n < 2 ^ 53) :
    ∃ less more, Shows m less ∧ Shows n more ∧ less.bytes ≤ more.bytes ∧
      less.IsAccurate m ∧ more.IsAccurate n :=
  ⟨shownSize m, shownSize n, shows_shownSize (Nat.lt_of_le_of_lt hle hn), shows_shownSize hn,
    bytes_shownSize_mono hle, isAccurate_shownSize m, isAccurate_shownSize n⟩

/-- Two sizes on both sides of a megabyte, of which the first is rounded up to it. -/
theorem shown_accurate_monotone_megabyte :
    1048575 ≤ 1048576 ∧ 1048576 < 2 ^ 53 ∧
      ∃ less more, Shows 1048575 less ∧ Shows 1048576 more ∧ less.bytes ≤ more.bytes ∧
        less.IsAccurate 1048575 ∧ more.IsAccurate 1048576 :=
  ⟨by decide, by decide, shown_accurate_monotone (by decide) (by decide)⟩

end Order

/-! ## Units -/

section Units

variable {n : Nat} {unit : SizeUnit}

/-- The size `n` does not lie in the last 0.05 of `unit` below the next unit. -/
def KeepsClear (n : Nat) (unit : SizeUnit) : Prop :=
  (n : ℚ) < (1024 - 5 / 100) * unit.bytes ∨ 1024 * unit.bytes ≤ (n : ℚ)

/-- In whole numbers, `KeepsClear` compares `20 * n` with `20479 * unit.bytes`. -/
theorem keepsClear_iff :
    KeepsClear n unit ↔ 20 * n < 20479 * unit.bytes ∨ 1024 * unit.bytes ≤ n := by
  have hbelow : (n : ℚ) < (1024 - 5 / 100) * unit.bytes ↔ 20 * n < 20479 * unit.bytes := by
    rw [← Nat.cast_lt (α := ℚ)]
    push_cast
    constructor
    · intro hless
      linarith
    · intro hless
      linarith
  have habove : 1024 * unit.bytes ≤ (n : ℚ) ↔ 1024 * unit.bytes ≤ n := by
    exact_mod_cast Iff.rfl
  rw [KeepsClear, hbelow, habove]

/-- A size that does not reach the unit is clear of the next one. -/
theorem keepsClear_of_le (h : n ≤ unit.bytes) : KeepsClear n unit := by
  have hpos := bytes_pos unit
  exact keepsClear_iff.2 (Or.inl (by omega))

/-- A size that reaches the next unit is not below it. -/
theorem keepsClear_of_ge (h : 1024 * unit.bytes ≤ n) : KeepsClear n unit :=
  keepsClear_iff.2 (Or.inr h)

/-- In a unit that is shown with a place, a size below the next unit has a numeral below 1024 if it
`KeepsClear`. -/
theorem numeral_sizeIn_lt_iff (h : n < 1024 * unit.bytes) (hplaces : places unit = 1) :
    (sizeIn unit n).numeral < 1024 ↔ KeepsClear n unit := by
  have hbound : n * 10 ^ 1 < 10240 * unit.bytes := by omega
  have hround := roundHalfEven_lt_iff hbound
  have hwhole : (sizeIn unit n).numeral < 1024 ↔ roundHalfEven (n * 10 ^ 1) unit.bytes < 10240 := by
    rw [sizeIn, hplaces, div_lt_iff₀ (by norm_num), ← Nat.cast_lt (α := ℚ)]
    norm_num
  rw [hwhole, hround, keepsClear_iff]
  omega

/-- The unit of a size is reached, and the next one is not. -/
theorem unitOf_bounds (n : Nat) :
    (unitOf n = .b ∨ (unitOf n).bytes ≤ n) ∧ (unitOf n = .gb ∨ n < 1024 * (unitOf n).bytes) := by
  simp only [unitOf]
  split_ifs <;> simp only [SizeUnit.bytes, false_or, true_or, true_and, and_true] <;> omega

/-- The numeral that is shown in a unit below the largest one is less than 1024 exactly if the size
`KeepsClear` of the next unit. Bytes are not rounded, so they always are less. -/
theorem numeral_lt_iff (h : n < 2 ^ 53) :
    ∃ size, Shows n size ∧ ((size.unit ≠ .gb → size.numeral < 1024) ↔
      ∀ unit ∈ [SizeUnit.kb, .mb], KeepsClear n unit) := by
  refine ⟨shownSize n, shows_shownSize h, ?_⟩
  rw [List.forall_mem_cons, List.forall_mem_singleton]
  obtain ⟨hlow, hhigh⟩ := unitOf_bounds n
  have hunit : (shownSize n).unit = unitOf n := rfl
  rw [hunit, shownSize]
  -- only the unit that the size is shown in is not settled by it
  cases hn : unitOf n with
  | b =>
      rw [hn] at hhigh
      have hless : n < 1024 := hhigh.resolve_left (by decide)
      have hnumeral : (sizeIn .b n).numeral < 1024 := by
        rw [sizeIn_b]
        show (n : ℚ) < 1024
        exact_mod_cast hless
      refine iff_of_true (fun _ => hnumeral) ⟨keepsClear_of_le ?_, keepsClear_of_le ?_⟩
      · exact hless.le
      · exact hless.le.trans (by decide)
  | kb =>
      rw [hn] at hhigh
      have hless : n < 1024 * SizeUnit.kb.bytes := hhigh.resolve_left (by decide)
      rw [numeral_sizeIn_lt_iff hless rfl, forall_prop_of_true (by decide)]
      exact (and_iff_left (keepsClear_of_le hless.le)).symm
  | mb =>
      rw [hn] at hlow hhigh
      have hless : n < 1024 * SizeUnit.mb.bytes := hhigh.resolve_left (by decide)
      rw [numeral_sizeIn_lt_iff hless rfl, forall_prop_of_true (by decide)]
      exact (and_iff_right (keepsClear_of_ge (hlow.resolve_left (by decide)))).symm
  | gb =>
      rw [hn] at hlow
      have hmore : 1024 * SizeUnit.mb.bytes ≤ n := hlow.resolve_left (by decide)
      refine iff_of_true (fun hne => absurd rfl hne) ⟨keepsClear_of_ge ?_, keepsClear_of_ge hmore⟩
      exact le_trans (by decide) hmore

/-- The largest number of bytes that keeps clear of the megabyte. -/
theorem numeral_lt_iff_nearMegabyte :
    1048524 < 2 ^ 53 ∧ ∃ size, Shows 1048524 size ∧ ((size.unit ≠ .gb → size.numeral < 1024) ↔
      ∀ unit ∈ [SizeUnit.kb, .mb], KeepsClear 1048524 unit) :=
  ⟨by decide, numeral_lt_iff (by decide)⟩

/-- The size 1048575 is shown as `1024.0 KB`: `_format_size` compares before it rounds. -/
theorem shown_as_1024 :
    formatSize (1048575 : Nat) = .ok "1024.0 KB" ∧
      ∃ size, Shows 1048575 size ∧ size.unit ≠ .gb ∧ ¬size.numeral < 1024 := by
  have htext : formatSize (1048575 : Nat) = .ok "1024.0 KB" := by decide +kernel
  have hread : readSize? "1024.0 KB" = some ⟨1024, .kb⟩ := by decide +kernel
  refine ⟨htext, ⟨1024, .kb⟩, ⟨_, htext, hread⟩, by decide, ?_⟩
  show ¬(1024 : ℚ) < 1024
  exact lt_irrefl _

end Units

end FileClerk.Rendering
