import FileClerk.Json.Reader
import FileClerk.Json.Writer
import FileClerk.Proofs.Number.Digits

/-!
# String literals in JSON

Every character is read as it is written, whatever follows it (`stringTail_stringChar`): as itself,
by a letter, by its UTF-16 unit or by a pair of units. A unit that is no part of a pair is read
alone even if another one follows. So a text is read as it is written (`stringTail_flatMap`), and
what is written has no line feed in it (`oneLine_string`).
-/

set_option autoImplicit false

namespace FileClerk.Json

open FileClerk.Number FileClerk.Text

section Units

variable {n : Nat} {acc tail : List Char}

/-- The text `unitEscape n` has four digits, which `unit?` reads as `n`. -/
theorem exists_unitEscape (hn : n < 0x10000) :
    ∃ a b c d, unitEscape n = ['\\', 'u', a, b, c, d] ∧ unit? a b c d = some n := by
  have hlength : (hex 4 n).length = 4 := length_hex (by decide) hn
  have hvalue := natural?_hex 4 n
  rw [unitEscape]
  match hdigits : hex 4 n, hlength with
  | [a, b, c, d], _ => exact ⟨a, b, c, d, rfl, by rw [unit?, ← hdigits, hvalue]⟩

/-- A unit that is no part of a pair stands for a character, whatever follows. -/
theorem stringTail_unitEscape (hn : n < 0x10000) (hhigh : isHigh n = false)
    (hlow : isLow n = false) (acc tail : List Char) :
    stringTail acc (unitEscape n ++ tail) = stringTail (Char.ofNat n :: acc) tail := by
  obtain ⟨a, b, c, d, hescape, hunit⟩ := exists_unitEscape hn
  rw [hescape]
  by_cases hnext : ∃ e f g h rest, tail = '\\' :: 'u' :: e :: f :: g :: h :: rest
  · -- the text goes on with an escape, which is not taken into a pair
    obtain ⟨e, f, g, h, rest, rfl⟩ := hnext
    rw [List.cons_append, List.cons_append, List.cons_append, List.cons_append, List.cons_append,
      List.cons_append, List.nil_append, stringTail, hunit]
    cases unit? e f g h with
    | none => rfl
    | some low => simp [hhigh, hlow]
  · rw [List.cons_append, List.cons_append, List.cons_append, List.cons_append, List.cons_append,
      List.cons_append, List.nil_append, stringTail, hunit]
    · simp [hhigh, hlow]
    · rintro e f g h rest rfl
      exact hnext ⟨e, f, g, h, rest, rfl⟩

/-- The two units of a pair stand for one character. -/
theorem stringTail_pair {high low : Nat} (hhigh : 0xd800 ≤ high ∧ high < 0xdc00)
    (hlow : 0xdc00 ≤ low ∧ low < 0xe000) (acc tail : List Char) :
    stringTail acc (unitEscape high ++ (unitEscape low ++ tail)) =
      stringTail (ofPair high low :: acc) tail := by
  obtain ⟨a, b, c, d, hfirst, hunit⟩ := exists_unitEscape (n := high) (by omega)
  obtain ⟨e, f, g, h, hsecond, hunit'⟩ := exists_unitEscape (n := low) (by omega)
  rw [hfirst, hsecond]
  simp only [List.cons_append, List.nil_append]
  rw [stringTail, hunit, hunit']
  simp [isHigh, isLow, hhigh, hlow]

end Units

/-- A letter behind a backslash stands for a character. -/
theorem stringTail_escape {c x : Char} (hc : c ≠ 'u') (h : escaped? c = some x)
    (acc tail : List Char) : stringTail acc ('\\' :: c :: tail) = stringTail (x :: acc) tail := by
  rw [stringTail, h]
  · rintro a b c' d e f g h rest heq
    exact absurd heq hc
  · rintro a b c' d rest heq
    exact absurd heq hc

/-- A plain character stands for itself. -/
theorem stringTail_plain {c : Char} (hquote : c ≠ '\x22') (hslash : c ≠ '\\')
    (hvisible : 32 ≤ c.toNat) (acc tail : List Char) :
    stringTail acc (c :: tail) = stringTail (c :: acc) tail := by
  have hlow : ¬c.toNat < 32 := Nat.not_lt.2 hvisible
  rw [stringTail]
  · simp [hquote, hslash, hlow]
  · intros
    contradiction
  · intros
    contradiction
  · intros
    contradiction

/-- The units of a character beyond the basic plane stand for it. -/
theorem ofPair_units {n : Nat} (h : 0x10000 ≤ n) :
    ofPair (0xd800 + (n - 0x10000) / 0x400) (0xdc00 + (n - 0x10000) % 0x400) = Char.ofNat n := by
  rw [ofPair, Nat.add_sub_cancel_left, Nat.add_sub_cancel_left, Nat.add_assoc,
    Nat.div_add_mod', Nat.add_sub_cancel' h]

/-- Every character `c` is read by `stringTail` as `stringChar` writes it. -/
theorem stringTail_stringChar (c : Char) (acc tail : List Char) :
    stringTail acc (stringChar c ++ tail) = stringTail (c :: acc) tail := by
  by_cases hquote : c = '\x22'
  · subst hquote
    exact stringTail_escape (by decide) rfl acc tail
  by_cases hslash : c = '\\'
  · subst hslash
    exact stringTail_escape (by decide) rfl acc tail
  by_cases hfeed : c = '\n'
  · subst hfeed
    exact stringTail_escape (by decide) rfl acc tail
  by_cases hreturn : c = '\r'
  · subst hreturn
    exact stringTail_escape (by decide) rfl acc tail
  by_cases htab : c = '\t'
  · subst htab
    exact stringTail_escape (by decide) rfl acc tail
  by_cases hform : c = '\x0c'
  · subst hform
    exact stringTail_escape (by decide) rfl acc tail
  by_cases hback : c = '\x08'
  · subst hback
    exact stringTail_escape (by decide) rfl acc tail
  -- no letter stands for the character
  simp only [stringChar, beq_eq_false_iff_ne.2 hquote, beq_eq_false_iff_ne.2 hslash,
    beq_eq_false_iff_ne.2 hfeed, beq_eq_false_iff_ne.2 hreturn, beq_eq_false_iff_ne.2 htab,
    beq_eq_false_iff_ne.2 hform, beq_eq_false_iff_ne.2 hback, Bool.false_eq_true, if_false]
  have hvalid : c.toNat < 0xd800 ∨ 0xdfff < c.toNat ∧ c.toNat < 0x110000 := c.valid
  split
  · rename_i hvisible
    simp only [Bool.and_eq_true, decide_eq_true_eq] at hvisible
    exact stringTail_plain hquote hslash hvisible.1 acc tail
  · split
    · rename_i hbasic
      have hsingle : isHigh c.toNat = false ∧ isLow c.toNat = false := by
        simp only [isHigh, isLow, Bool.and_eq_false_iff, decide_eq_false_iff_not]
        omega
      rw [stringTail_unitEscape hbasic hsingle.1 hsingle.2, Char.ofNat_toNat]
    · rename_i hbasic
      rw [List.append_assoc, stringTail_pair (by omega) (by omega),
        ofPair_units (Nat.not_lt.1 hbasic), Char.ofNat_toNat]

/-- A text is read by `stringTail` as it is written, up to the quote behind it. -/
theorem stringTail_flatMap (s acc rest : List Char) :
    stringTail acc (s.flatMap stringChar ++ '\x22' :: rest) =
      some (String.ofList (acc.reverse ++ s), rest) := by
  induction s generalizing acc with
  | nil =>
      rw [List.flatMap_nil, List.nil_append, stringTail]
      · simp
      · simp
      · simp
      · simp
  | cons c s ih =>
      rw [List.flatMap_cons, List.append_assoc, stringTail_stringChar, ih, List.reverse_cons,
        List.append_assoc, List.singleton_append]

/-! ## Lines -/

/-- Digits are no line feeds. -/
theorem newline_notMem_toDigits {base : Nat} (hbase : 1 < base) (n : Nat) :
    '\n' ∉ Nat.toDigits base n := by
  induction n using Nat.strong_induction_on with
  | _ n ih =>
      rw [Nat.toDigits_eq_if hbase]
      split
      · simp
      · rename_i hlarge
        simp [ih (n / base) (Nat.div_lt_self (by omega) hbase)]

theorem newline_notMem_unitEscape (n : Nat) : '\n' ∉ unitEscape n := by
  simp [unitEscape, hex, newline_notMem_toDigits, List.mem_replicate]

/-- The text of a character, `stringChar c`, has no `\n`. -/
theorem newline_notMem_stringChar (c : Char) : '\n' ∉ stringChar c := by
  simp only [stringChar]
  split_ifs with hquote hslash hfeed hreturn htab hform hback hvisible hbasic
  · decide
  · decide
  · decide
  · decide
  · decide
  · decide
  · decide
  · rw [List.mem_singleton]
    rintro rfl
    exact absurd hfeed (by decide)
  · exact newline_notMem_unitEscape _
  · simp [newline_notMem_unitEscape]

/-- The text has no `\n`. -/
def OneLine (s : String) : Prop := '\n' ∉ s.toList

instance (s : String) : Decidable (OneLine s) := inferInstanceAs (Decidable ('\n' ∉ s.toList))

theorem OneLine.append {s t : String} (hs : OneLine s) (ht : OneLine t) : OneLine (s ++ t) := by
  rw [OneLine, String.toList_append, List.mem_append, not_or]
  exact ⟨hs, ht⟩

/-- Parts on one line make one line. -/
theorem OneLine.intercalate {separator : String} (hseparator : OneLine separator)
    {parts : List String} (h : ∀ part ∈ parts, OneLine part) :
    OneLine (separator.intercalate parts) := by
  induction parts with
  | nil => exact List.not_mem_nil
  | cons first parts ih =>
      obtain ⟨hfirst, hrest⟩ := List.forall_mem_cons.1 h
      cases parts with
      | nil =>
          rw [String.intercalate_singleton]
          exact hfirst
      | cons second parts =>
          rw [String.intercalate_cons_cons]
          exact (hfirst.append hseparator).append (ih hrest)

/-- A string literal is written on one line: `\n` is escaped. -/
theorem oneLine_string (s : String) : OneLine (string s) := by
  simp [OneLine, string, newline_notMem_stringChar]

end FileClerk.Json
