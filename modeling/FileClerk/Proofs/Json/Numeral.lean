import FileClerk.Json.Writer
import FileClerk.Json.Reader
import FileClerk.Proofs.Number.Digits
import FileClerk.Proofs.Number.Shortest
import FileClerk.Proofs.Text.CharClass

/-!
# Numbers in JSON

A number is read up to the first character that cannot be part of one (`StopsBefore continues`).
Whole numbers are read as they are written (`number?_int`). A number with a fraction or an exponent
is read by its digits and the place of the point (`magnitude?_eq`). The layouts that binary numbers
are written in put the point at its place (`spells_layout`), so these are read as they are written
as well (`number?_finite`).
-/

set_option autoImplicit false

namespace FileClerk.Json

open FileClerk.Number FileClerk.Text

/-- The character may go on with a number: a digit, `.`, `e` or `E`. -/
def continues (c : Char) : Bool := c.isDigit || c == '.' || c == 'e' || c == 'E'

/-- All characters are decimal digits. -/
def Digits (s : List Char) : Prop := ∀ c ∈ s, c.isDigit = true

/-- The digits of a whole number, without a `0` in front of others. -/
structure IsWhole (s : List Char) : Prop where
  digits : Digits s
  ne_nil : s ≠ []
  noZero : 1 < s.length → s.head? ≠ some '0'

section Digits

variable {s t : List Char}

theorem Digits.append (hs : Digits s) (ht : Digits t) : Digits (s ++ t) := by
  intro c hc
  rcases List.mem_append.1 hc with hc | hc
  · exact hs c hc
  · exact ht c hc

theorem Digits.mono (hs : Digits s) (h : t ⊆ s) : Digits t := fun c hc => hs c (h hc)

theorem digits_zeros (k : Nat) : Digits (List.replicate k '0') := fun _ => isDigit_of_mem_zeros

theorem digits_toDigits (n : Nat) : Digits (Nat.toDigits 10 n) :=
  fun _ => Nat.isDigit_of_mem_toDigits (by decide) (by decide)

/-- The first digit of a number other than zero is not zero. -/
theorem head?_toDigits {n : Nat} (hn : n ≠ 0) : (Nat.toDigits 10 n).head? ≠ some '0' := by
  induction n using Nat.strong_induction_on with
  | _ n ih =>
      rw [Nat.toDigits_eq_if (by decide)]
      split
      · rw [List.head?_cons, ne_eq, Option.some.injEq, Nat.digitChar_eq_zero]
        exact hn
      · rename_i hlarge
        have hrest := ih (n / 10) (Nat.div_lt_self (by omega) (by decide)) (by omega)
        rw [List.head?_append_of_ne_nil _ Nat.toDigits_ne_nil]
        exact hrest

theorem isWhole_toDigits (n : Nat) : IsWhole (Nat.toDigits 10 n) := by
  refine ⟨digits_toDigits n, Nat.toDigits_ne_nil, ?_⟩
  intro hlong
  apply head?_toDigits
  rintro rfl
  rw [Nat.toDigits_zero] at hlong
  exact absurd hlong (by decide)

end Digits

/-! ## Reading -/

section Reading

variable {negative : Bool} {whole places digits rest : List Char}

/-- The text of `places` behind the point, with the point; nothing without any. -/
def fractionText (places : List Char) : List Char := if places = [] then [] else '.' :: places

/-- The text of an exponent: `e`, a sign and digits. -/
def exponentText : Option (Bool × List Char) → List Char
  | none => []
  | some (negative, digits) => 'e' :: (if negative then '-' else '+') :: digits

/-- The exponent that digits with a sign stand for. -/
def exponentValue : Option (Bool × List Char) → Int
  | none => 0
  | some (negative, digits) =>
    if negative then -(decimalValue digits : Int) else decimalValue digits

/-- An exponent has digits. -/
def ExponentDigits (x : Option (Bool × List Char)) : Prop :=
  ∀ part ∈ x, part.2 ≠ [] ∧ Digits part.2

theorem stopsBefore_isDigit (h : StopsBefore continues rest) : StopsBefore Char.isDigit rest := by
  cases rest with
  | nil => exact stopsBefore_nil _
  | cons c rest =>
      have hc := stopsBefore_cons.1 h
      simp only [continues, Bool.or_eq_false_iff] at hc
      exact stopsBefore_cons.2 hc.1.1.1

/-- The first part of a number is read up to what follows it. -/
theorem magnitude?_whole (h : IsWhole whole) (hrest : StopsBefore Char.isDigit rest) :
    (whole ++ rest).takeWhile Char.isDigit = whole ∧
      (whole ++ rest).dropWhile Char.isDigit = rest ∧
        (whole.isEmpty || (decide (1 < whole.length) && whole.head? == some '0')) = false := by
  refine ⟨takeWhile_append_stop h.digits hrest, dropWhile_append_stop h.digits hrest, ?_⟩
  have hempty : whole.isEmpty = false := by simpa using h.ne_nil
  have hzero := h.noZero
  rw [hempty, Bool.false_or]
  by_cases hlong : 1 < whole.length
  · simp [hlong, hzero hlong]
  · simp [hlong]

/-- A whole number is read by `magnitude?` up to what follows it. -/
theorem magnitude?_int (h : IsWhole whole) (hrest : StopsBefore continues rest) :
    magnitude? negative (whole ++ rest) =
      some (.int (if negative then -(decimalValue whole : Int) else decimalValue whole), rest) := by
  obtain ⟨htake, hdrop, hwhole⟩ := magnitude?_whole h (stopsBefore_isDigit hrest)
  have hexponent : exponentPart? rest = some (none, rest) := by
    cases rest with
    | nil => rfl
    | cons c rest =>
        have hc := stopsBefore_cons.1 hrest
        simp only [continues, Bool.or_eq_false_iff] at hc
        simp [exponentPart?, hc.1.2, hc.2]
  have hfraction : ∀ more, rest ≠ '.' :: more := by
    rintro more rfl
    exact absurd (stopsBefore_cons.1 hrest) (by decide)
  rw [magnitude?]
  simp [htake, hdrop, hwhole, hexponent]

/-- An exponent is read up to what follows it. -/
theorem exponentPart?_eq {x : Option (Bool × List Char)} (hx : ExponentDigits x)
    (hrest : StopsBefore continues rest) :
    exponentPart? (exponentText x ++ rest) = some (x.map fun _ => exponentValue x, rest) := by
  cases x with
  | none =>
      cases rest with
      | nil => rfl
      | cons c rest =>
          have hc := stopsBefore_cons.1 hrest
          simp only [continues, Bool.or_eq_false_iff] at hc
          simp [exponentText, exponentPart?, hc.1.2, hc.2]
  | some part =>
      obtain ⟨negative, digits⟩ := part
      obtain ⟨hne, hdigits⟩ := hx _ rfl
      have hstop := stopsBefore_isDigit hrest
      cases negative with
      | false =>
          simp [exponentText, exponentPart?, exponentValue, takeWhile_append_stop hdigits hstop,
            dropWhile_append_stop hdigits hstop, hne]
      | true =>
          simp [exponentText, exponentPart?, exponentValue, takeWhile_append_stop hdigits hstop,
            dropWhile_append_stop hdigits hstop, hne]

/-- A number with a fraction or an exponent is read by `magnitude?` as `ofDecimal` of its digits and
the place of the point. -/
theorem magnitude?_eq {x : Option (Bool × List Char)} (hwhole : IsWhole whole)
    (hplaces : Digits places) (hx : ExponentDigits x) (hfloat : places ≠ [] ∨ x ≠ none)
    (hrest : StopsBefore continues rest) :
    magnitude? negative (whole ++ (fractionText places ++ (exponentText x ++ rest))) =
      some (.float (.ofDecimal negative (decimalValue (whole ++ places))
        (exponentValue x - places.length)), rest) := by
  have hexponent := exponentPart?_eq hx hrest
  have htail : StopsBefore Char.isDigit (exponentText x ++ rest) := by
    cases x with
    | none => exact stopsBefore_isDigit hrest
    | some part => exact stopsBefore_cons.2 rfl
  by_cases hplain : places = []
  · -- without a fraction there is an exponent, and its letter is no point
    subst hplain
    obtain ⟨part, hpart⟩ := Option.ne_none_iff_exists'.1 (hfloat.resolve_left (· rfl))
    obtain ⟨htake, hdrop, hempty⟩ := magnitude?_whole hwhole htail
    have hpoint : ∀ more, exponentText x ++ rest ≠ '.' :: more := by
      intro more heq
      rw [hpart] at heq
      exact absurd (List.cons.inj heq).1 (by decide)
    rw [magnitude?, fractionText, if_pos rfl, List.nil_append]
    simp only [htake, hdrop, hempty, hexponent, Bool.false_eq_true, if_false]
    subst hpart
    simp
  · have hstop : StopsBefore Char.isDigit (fractionText places ++ (exponentText x ++ rest)) := by
      rw [fractionText, if_neg hplain]
      exact stopsBefore_cons.2 rfl
    obtain ⟨htake, hdrop, hempty⟩ := magnitude?_whole hwhole hstop
    rw [magnitude?]
    simp only [htake, hdrop, hempty]
    rw [fractionText, if_neg hplain, List.cons_append]
    simp only [takeWhile_append_stop hplaces htail, dropWhile_append_stop hplaces htail]
    rw [hexponent]
    cases x with
    | none => simp [hplain, exponentValue]
    | some part => simp [hplain]

/-- Behind a digit, no sign or name is looked for. -/
theorem number?_of_isWhole (h : IsWhole whole) (rest : List Char) :
    number? (whole ++ rest) = magnitude? false (whole ++ rest) ∧
      number? ('-' :: (whole ++ rest)) = magnitude? true (whole ++ rest) := by
  obtain ⟨c, more, rfl⟩ := List.exists_cons_of_ne_nil h.ne_nil
  have hc := h.digits c List.mem_cons_self
  constructor
  · rw [List.cons_append, number?]
    intro behind heq
    rw [(List.cons.inj heq).1] at hc
    exact absurd hc (by decide)
  · have hname : after? "Infinity".toList (c :: more ++ rest) = none := by
      have hne : ('I' == c) = false := by
        rw [beq_eq_false_iff_ne]
        rintro rfl
        exact absurd hc (by decide)
      simp [after?, hne]
    rw [number?, hname]

end Reading

/-! ## Layouts -/

/-- The text is a number with a fraction or an exponent, and its digits with the point at its place
are worth `value`. -/
def Spells (body : List Char) (value : ℚ) : Prop :=
  ∃ (whole places : List Char) (x : Option (Bool × List Char)),
    body = whole ++ (fractionText places ++ exponentText x) ∧
      IsWhole whole ∧ Digits places ∧ ExponentDigits x ∧ (places ≠ [] ∨ x ≠ none) ∧
        decimalValue (whole ++ places) * (10 : ℚ) ^ (exponentValue x - places.length) = value

section Layouts

variable {body digits rest : List Char} {n d m : Nat} {k e point : Int}

/-- What `Spells` a decimal is read by `number?` as `ofDecimal`, with or without a minus sign. -/
theorem Spells.read (h : Spells body (d * 10 ^ k)) (hrest : StopsBefore continues rest) :
    number? (body ++ rest) = some (.float (.ofDecimal false d k), rest) ∧
      number? ('-' :: (body ++ rest)) = some (.float (.ofDecimal true d k), rest) := by
  obtain ⟨whole, places, x, rfl, hwhole, hplaces, hx, hfloat, hvalue⟩ := h
  obtain ⟨hplain, hsigned⟩ :=
    number?_of_isWhole hwhole (fractionText places ++ (exponentText x ++ rest))
  rw [magnitude?_eq hwhole hplaces hx hfloat hrest, Binary64.ofDecimal_congr hvalue] at hplain
  rw [magnitude?_eq hwhole hplaces hx hfloat hrest, Binary64.ofDecimal_congr hvalue] at hsigned
  rw [List.append_assoc, List.append_assoc]
  exact ⟨hplain, hsigned⟩

/-- A point in front of all digits, with zeros between it and the digits. -/
theorem spells_inFront (hdigits : Digits digits) (hne : digits ≠ []) (gap : Nat) :
    Spells ('0' :: '.' :: (List.replicate gap '0' ++ digits))
      (decimalValue digits * 10 ^ (-gap - digits.length : Int)) := by
  refine ⟨['0'], List.replicate gap '0' ++ digits, none, ?_,
    ⟨digits_zeros 1, by simp, by simp⟩, (digits_zeros _).append hdigits, by simp [ExponentDigits],
    Or.inl (by simp [hne]), ?_⟩
  · simp [fractionText, exponentText, hne]
  · have hvalue := decimalValue_zeros_append hdigits (gap + 1)
    rw [List.replicate_succ] at hvalue
    rw [List.singleton_append, ← List.cons_append, hvalue]
    congr 2
    rw [exponentValue, List.length_append, List.length_replicate]
    push_cast
    ring

/-- A point behind all digits, with zeros between the digits and it. -/
theorem spells_behind (hdigits : Digits digits) (hne : digits ≠ [])
    (hzero : digits.head? ≠ some '0') (gap : Nat) :
    Spells (digits ++ List.replicate gap '0' ++ ['.', '0'])
      (decimalValue digits * 10 ^ (gap : Int)) := by
  have hhead : (digits ++ List.replicate gap '0').head? ≠ some '0' := by
    rwa [List.head?_append_of_ne_nil _ hne]
  refine ⟨digits ++ List.replicate gap '0', ['0'], none, ?_,
    ⟨hdigits.append (digits_zeros gap), by simp [hne], fun _ => hhead⟩, digits_zeros 1,
    by simp [ExponentDigits], Or.inl (by simp), ?_⟩
  · simp [fractionText, exponentText]
  · rw [List.append_assoc, show List.replicate gap '0' ++ ['0'] = List.replicate (gap + 1) '0' from
      List.replicate_succ'.symm, decimalValue_append_zeros hdigits]
    push_cast
    rw [mul_assoc, ← zpow_natCast, ← zpow_add₀ (by norm_num)]
    congr 2
    rw [exponentValue, List.length_singleton]
    push_cast
    ring

/-- A point among the digits. -/
theorem spells_among (hdigits : Digits digits) (hzero : digits.head? ≠ some '0') {size : Nat}
    (hpositive : 0 < size) (hlong : size < digits.length) :
    Spells (digits.take size ++ '.' :: digits.drop size)
      (decimalValue digits * 10 ^ (size - digits.length : Int)) := by
  have hdrop : digits.drop size ≠ [] := by
    rw [ne_eq, List.drop_eq_nil_iff]
    exact Nat.not_le.2 hlong
  have htake : digits.take size ≠ [] := by
    rw [ne_eq, List.take_eq_nil_iff, not_or]
    exact ⟨hpositive.ne', List.ne_nil_of_length_pos (Nat.zero_lt_of_lt hlong)⟩
  have hhead : (digits.take size).head? ≠ some '0' := by
    rwa [List.head?_take, if_neg hpositive.ne']
  refine ⟨digits.take size, digits.drop size, none, ?_,
    ⟨hdigits.mono (List.take_subset _ _), htake, fun _ => hhead⟩,
    hdigits.mono (List.drop_subset _ _), by simp [ExponentDigits], Or.inl hdrop, ?_⟩
  · simp [fractionText, exponentText, hdrop]
  · rw [List.take_append_drop]
    congr 2
    rw [exponentValue, List.length_drop]
    omega

/-- The layout `positional` has the point at its place. -/
theorem spells_positional (hdigits : Digits digits) (hne : digits ≠ [])
    (hzero : digits.head? ≠ some '0') (point : Int) :
    Spells (Binary64.positional digits point)
      (decimalValue digits * 10 ^ (point - digits.length)) := by
  rw [Binary64.positional]
  split
  · rename_i hpoint
    obtain ⟨gap, hgap⟩ := Int.eq_ofNat_of_zero_le (Int.neg_nonneg.2 hpoint)
    rw [← Int.neg_neg point, hgap, Int.neg_neg, Int.toNat_natCast]
    exact spells_inFront hdigits hne gap
  · rename_i hpoint
    obtain ⟨size, rfl⟩ := Int.eq_ofNat_of_zero_le (Int.le_of_lt (Int.not_le.1 hpoint))
    simp only [Int.toNat_natCast]
    by_cases hlong : size < digits.length
    · have hdrop : (digits.drop size).isEmpty = false := by simp [hlong]
      rw [hdrop, Nat.sub_eq_zero_of_le hlong.le, List.replicate_zero, List.append_nil]
      exact spells_among hdigits hzero (by omega) hlong
    · have hshort := Nat.not_lt.1 hlong
      obtain ⟨gap, rfl⟩ := Nat.exists_eq_add_of_le hshort
      rw [List.drop_eq_nil_of_le hshort, List.take_of_length_le hshort, Nat.add_sub_cancel_left,
        show ((digits.length + gap : Nat) : Int) - digits.length = gap by push_cast; ring]
      exact spells_behind hdigits hne hzero gap

/-- The layout `scientific` has the point behind the first digit. -/
theorem spells_scientific (hdigits : Digits digits) (hne : digits ≠ [])
    (hzero : digits.head? ≠ some '0') (e : Int) :
    Spells (Binary64.scientific digits e)
      (decimalValue digits * 10 ^ (e + 1 - digits.length)) := by
  obtain ⟨first, more, rfl⟩ := List.exists_cons_of_ne_nil hne
  have hsize : (toString e.natAbs).toList = Nat.toDigits 10 e.natAbs := String.toList_ofList
  have hfirst : IsWhole [first] := by
    refine ⟨hdigits.mono (by simp), by simp, by simp⟩
  refine ⟨[first], more, some (decide (e < 0), List.replicate (2 -
    (Nat.toDigits 10 e.natAbs).length) '0' ++ Nat.toDigits 10 e.natAbs), ?_, hfirst,
    hdigits.mono (List.subset_cons_self _ _), ?_, Or.inr (by simp), ?_⟩
  · rw [Binary64.scientific, hsize]
    by_cases hmore : more = []
    · simp [fractionText, exponentText, hmore]
    · simp [fractionText, exponentText, hmore]
  · rintro part ⟨rfl⟩
    exact ⟨by simp [Nat.toDigits_ne_nil], (digits_zeros _).append (digits_toDigits _)⟩
  · -- the digits of the exponent are those of `e.natAbs` behind zeros
    rw [List.singleton_append]
    congr 2
    rw [exponentValue, decimalValue_zeros_append (digits_toDigits _), decimalValue_toDigits,
      List.length_cons]
    split
    · rename_i hneg
      rw [decide_eq_true_eq] at hneg
      omega
    · rename_i hneg
      rw [decide_eq_true_eq] at hneg
      omega

/-! ## Binary numbers -/

/-- A number has as many digits as are written. -/
theorem length_toDigits (n : Nat) : (Nat.toDigits 10 n).length = digitCount n := by
  apply Nat.le_antisymm
  · exact (Nat.length_toDigits_le_iff (by decide) (digitCount_pos n)).2 (lt_pow_digitCount n)
  · exact (digitCount_le_iff Nat.length_toDigits_pos n).2
      ((Nat.length_toDigits_le_iff (by decide) Nat.length_toDigits_pos).1 (Nat.le_refl _))

/-- The digits of `n` without the zeros at their end. -/
def leading (n : Nat) : List Char :=
  ((Nat.toDigits 10 n).reverse.dropWhile (· == '0')).reverse

/-- The zeros at the end follow the leading digits. -/
theorem exists_leading_append (n : Nat) :
    ∃ zeros, leading n ++ List.replicate zeros '0' = Nat.toDigits 10 n := by
  refine ⟨((Nat.toDigits 10 n).reverse.takeWhile (· == '0')).length, ?_⟩
  have hzeros : (Nat.toDigits 10 n).reverse.takeWhile (· == '0') =
      List.replicate ((Nat.toDigits 10 n).reverse.takeWhile (· == '0')).length '0' := by
    apply List.eq_replicate_of_mem
    intro c hc
    have hzero := List.mem_takeWhile_imp hc
    exact eq_of_beq hzero
  apply List.reverse_injective
  rw [List.reverse_append, List.reverse_replicate, leading, List.reverse_reverse, ← hzeros,
    List.takeWhile_append_dropWhile]

/-- The decimal `n * 10 ^ k` in the layout that its size asks for. -/
def layout (n : Nat) (k : Int) : List Char :=
  let point := k + digitCount n
  if -4 < point && point ≤ 16 then Binary64.positional (leading n) point
  else Binary64.scientific (leading n) (point - 1)

/-- The text `layout n k` has `Spells` for `n * 10 ^ k`. -/
theorem spells_layout (hn : n ≠ 0) (k : Int) : Spells (layout n k) (n * 10 ^ k) := by
  obtain ⟨zeros, hzeros⟩ := exists_leading_append n
  have hdigits : Digits (leading n) :=
    (digits_toDigits n).mono (hzeros ▸ List.subset_append_left _ _)
  have hvalue : n = decimalValue (leading n) * 10 ^ zeros := by
    rw [← decimalValue_append_zeros hdigits, hzeros, decimalValue_toDigits]
  have hne : leading n ≠ [] := by
    intro hnil
    rw [hnil] at hvalue
    rw [show decimalValue [] = 0 from rfl, Nat.zero_mul] at hvalue
    exact hn hvalue
  have hhead : (leading n).head? ≠ some '0' := by
    have hfirst := head?_toDigits hn
    rwa [← hzeros, List.head?_append_of_ne_nil _ hne] at hfirst
  -- the zeros at the end are those that the exponent counts
  have hcount : digitCount n = (leading n).length + zeros := by
    rw [← length_toDigits, ← hzeros, List.length_append, List.length_replicate]
  have hsame : (n : ℚ) * 10 ^ k =
      decimalValue (leading n) * 10 ^ (k + digitCount n - (leading n).length) := by
    rw [show k + digitCount n - (leading n).length = (zeros : Int) + k by omega,
      zpow_add₀ (by norm_num), zpow_natCast, ← mul_assoc]
    congr 1
    exact_mod_cast hvalue
  rw [hsame, layout]
  split
  · exact spells_positional hdigits hne hhead _
  · have hscientific := spells_scientific hdigits hne hhead (k + digitCount n - 1)
    rwa [Int.sub_add_cancel] at hscientific

/-- The text of a finite number other than zero is the `layout` of its `shortest` decimal. -/
theorem toList_text (hm : m ≠ 0) (negative : Bool) :
    (Binary64.finite negative m e).text.toList =
      (if negative then ['-'] else []) ++
        layout (Binary64.shortest m e).1 (Binary64.shortest m e).2 := by
  rw [Binary64.text]
  · generalize Binary64.shortest m e = found
    simp only [Nat.toString_eq_ofList_toDigits, String.toList_ofList, layout, leading]
    cases negative with
    | false => rfl
    | true => rfl
  · exact hm

/-- The text of a finite number in range is a numeral whose `ofDecimal` is the number. -/
theorem exists_spells_text (h : Binary64.InRange m e) (negative : Bool) :
    ∃ (body : List Char) (d : Nat) (k : Int),
      (Binary64.finite negative m e).text.toList = (if negative then ['-'] else []) ++ body ∧
        Spells body (d * 10 ^ k) ∧ Binary64.ofDecimal negative d k = .finite negative m e := by
  rcases Nat.eq_zero_or_pos m with rfl | hm
  · have he : e = -1074 := h.normal.resolve_right (by decide)
    subst he
    refine ⟨"0.0".toList, 0, 0, ?_, ⟨['0'], ['0'], none, rfl, ⟨digits_zeros 1, by simp, by simp⟩,
      digits_zeros 1, by simp [ExponentDigits], Or.inl (by simp), ?_⟩, rfl⟩
    · cases negative with
      | false => rfl
      | true => rfl
    · rw [show decimalValue (['0'] ++ ['0']) = 0 from rfl, Nat.cast_zero, zero_mul, zero_mul]
  · have hread := Binary64.ofDecimal_shortest hm h
    have hdigits : (Binary64.shortest m e).1 ≠ 0 := by
      intro hzero
      have hfound := hread false
      rw [hzero] at hfound
      cases hfound
      exact Nat.lt_irrefl 0 hm
    exact ⟨_, _, _, toList_text hm.ne' negative, spells_layout hdigits _, hread negative⟩

/-- A finite number is read by `number?` as `text` writes it. -/
theorem number?_finite {negative : Bool} (h : Binary64.InRange m e)
    (hrest : StopsBefore continues rest) :
    number? ((Binary64.finite negative m e).text.toList ++ rest) =
      some (.float (.finite negative m e), rest) := by
  obtain ⟨body, d, k, htext, hspells, hvalue⟩ := exists_spells_text h negative
  obtain ⟨hplain, hsigned⟩ := hspells.read hrest
  rw [htext, ← hvalue]
  cases negative with
  | false => exact hplain
  | true => exact hsigned

/-- An integer is written as its digits with a sign. -/
theorem toList_toString (i : Int) :
    (toString i).toList = (if i < 0 then ['-'] else []) ++ Nat.toDigits 10 i.natAbs := by
  cases i with
  | ofNat n => exact String.toList_ofList
  | negSucc n =>
      rw [show toString (Int.negSucc n) = "-" ++ toString (n + 1) from rfl, String.toList_append,
        if_pos (Int.negSucc_lt_zero n)]
      exact congrArg ('-' :: ·) String.toList_ofList

/-- An integer is read by `number?` as `toString` writes it. -/
theorem number?_int (i : Int) (hrest : StopsBefore continues rest) :
    number? ((toString i).toList ++ rest) = some (.int i, rest) := by
  have hwhole := isWhole_toDigits i.natAbs
  obtain ⟨hplain, hsigned⟩ := number?_of_isWhole hwhole rest
  rw [magnitude?_int hwhole hrest, decimalValue_toDigits] at hplain hsigned
  rw [toList_toString]
  split
  · rename_i hneg
    rw [List.singleton_append, List.cons_append, hsigned, if_pos rfl]
    congr 3
    omega
  · rename_i hneg
    rw [List.nil_append, hplain, if_neg Bool.false_ne_true]
    congr 3
    omega

/-! ## Lines -/

theorem Digits.newline_notMem {s : List Char} (h : Digits s) : '\n' ∉ s :=
  fun hmem => absurd (h _ hmem) (by decide)

/-- A number with a fraction or an exponent is spelled out on one line. -/
theorem Spells.newline_notMem {value : ℚ} (h : Spells body value) : '\n' ∉ body := by
  obtain ⟨whole, places, x, rfl, hwhole, hplaces, hx, -⟩ := h
  have hfraction : '\n' ∉ fractionText places := by
    rw [fractionText]
    split
    · exact List.not_mem_nil
    · simpa using hplaces.newline_notMem
  have hexponent : '\n' ∉ exponentText x := by
    cases x with
    | none => exact List.not_mem_nil
    | some part =>
        obtain ⟨negative, digits⟩ := part
        have hdigits := (hx _ rfl).2.newline_notMem
        cases negative with
        | false => simpa [exponentText] using hdigits
        | true => simpa [exponentText] using hdigits
  simp [hwhole.digits.newline_notMem, hfraction, hexponent]

theorem newline_notMem_finite (h : Binary64.InRange m e) (negative : Bool) :
    '\n' ∉ (Binary64.finite negative m e).text.toList := by
  obtain ⟨body, d, k, htext, hspells, -⟩ := exists_spells_text h negative
  rw [htext]
  cases negative with
  | false => simpa using hspells.newline_notMem
  | true => simpa using hspells.newline_notMem

theorem newline_notMem_int (i : Int) : '\n' ∉ (toString i).toList := by
  rw [toList_toString]
  have hdigits := (digits_toDigits i.natAbs).newline_notMem
  split
  · simpa using hdigits
  · simpa using hdigits

end Layouts

end FileClerk.Json
