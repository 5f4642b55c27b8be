import FileClerk.Proofs.Json.Literal
import FileClerk.Proofs.Json.Numeral
import FileClerk.Proofs.Value

/-!
# JSON read back

A JSON text keeps of a value what JSON has a form for (`kept`): a tuple is a list, and a key is a
text. A value that JSON has all forms for is kept as it is (`kept_eq_self`).

The line of a value that can be written is read as what it keeps of the value (`parse?_compact`),
and it is one line (`oneLine_compact`). The induction is over the value. Inside a collection
the reader has less fuel than outside, but what it reads there is shorter by more than that.
-/

set_option autoImplicit false

namespace FileClerk.Json

open FileClerk.Number FileClerk.Text

/-! ## What a text keeps -/

/-- The text that stands for a key: a text for itself, and any other value by `scalar`. -/
def keyText : Value → String
  | .text s => s
  | value => scalar value

theorem key_eq (k : Value) : key k = string (keyText k) := by
  cases k <;> rfl

mutual

/-- The value that a JSON text keeps of a value: lists for tuples, and texts for keys. -/
def kept : Value → Value
  | .list items => .list (keptItems items)
  | .tuple items => .list (keptItems items)
  | .map entries => .map (Value.ofPairs (keptEntries entries))
  | .null => .null
  | .bool b => .bool b
  | .int n => .int n
  | .float x => .float x
  | .text s => .text s
  | value => .text value.plain

/-- The items that a JSON text keeps. -/
def keptItems : List Value → List Value
  | [] => []
  | item :: rest => kept item :: keptItems rest

/-- The entries that a JSON text keeps, the last one for a key among them. -/
def keptEntries : List (Value × Value) → List (Value × Value)
  | [] => []
  | (k, v) :: rest => (.text (keyText k), kept v) :: keptEntries rest

end

/-- The value has a form as a key: a text, a number that is not too long, a truth value or `null`.
-/
def IsKey : Value → Prop
  | .text _ => True
  | .null => True
  | .bool _ => True
  | .int n => isTooLong n = false
  | .float x => x.IsCanonical
  | _ => False

/-- The value has a text `compact v`: no integer in it is too long, keys have a form, and no
collection contains itself. -/
inductive IsWritable : Value → Prop where
  | null : IsWritable .null
  | bool (b : Bool) : IsWritable (.bool b)
  | int (n : Int) (h : isTooLong n = false) : IsWritable (.int n)
  | float (x : Binary64) (h : x.IsCanonical) : IsWritable (.float x)
  | text (s : String) : IsWritable (.text s)
  | list (items : List Value) (h : ∀ item ∈ items, IsWritable item) : IsWritable (.list items)
  | tuple (items : List Value) (h : ∀ item ∈ items, IsWritable item) : IsWritable (.tuple items)
  | map (entries : List (Value × Value)) (hkeys : ∀ entry ∈ entries, IsKey entry.1)
      (hvalues : ∀ entry ∈ entries, IsWritable entry.2) : IsWritable (.map entries)

/-! ## Scalars -/

section Scalars

variable {fuel : Nat} {s rest : List Char}

/-- What is read as a number starts with a minus sign or a digit. -/
theorem exists_first_of_number? {r : Value × List Char} (h : number? s = some r) :
    ∃ c t, s = c :: t ∧ (c = '-' ∨ c.isDigit = true) := by
  cases s with
  | nil =>
      rw [show number? [] = none from rfl] at h
      cases h
  | cons c t =>
      refine ⟨c, t, rfl, ?_⟩
      by_cases hsign : c = '-'
      · exact Or.inl hsign
      · refine Or.inr ?_
        by_contra hdigit
        have hnone : magnitude? false (c :: t) = none := by simp [magnitude?, hdigit]
        rw [number?, hnone] at h
        · cases h
        · rintro more heq
          exact hsign (List.cons.inj heq).1

/-- A minus sign and a digit start no other kind of value. -/
theorem first_of_number {c : Char} (h : c = '-' ∨ c.isDigit = true) :
    c ≠ '[' ∧ c ≠ ']' ∧ c ≠ '\x7b' ∧ c ≠ '\x22' ∧ isSpace c = false ∧
      ∀ t, constant? (c :: t) = none := by
  have hne : ∀ d : Char, d ≠ '-' → d.isDigit = false → c ≠ d := by
    rintro d hminus hdigit rfl
    rcases h with hc | hc
    · exact hminus hc
    · rw [hdigit] at hc
      cases hc
  refine ⟨hne _ (by decide) (by decide), hne _ (by decide) (by decide),
    hne _ (by decide) (by decide), hne _ (by decide) (by decide), ?_, ?_⟩
  · simp [isSpace, hne ' ' (by decide) (by decide), hne '\n' (by decide) (by decide),
      hne '\r' (by decide) (by decide), hne '\t' (by decide) (by decide)]
  · intro t
    simp [constant?, after?, (hne 'n' (by decide) (by decide)).symm,
      (hne 't' (by decide) (by decide)).symm, (hne 'f' (by decide) (by decide)).symm,
      (hne 'N' (by decide) (by decide)).symm, (hne 'I' (by decide) (by decide)).symm]

/-- A number is read by `value?` as `number?` reads it. -/
theorem value?_number {r : Value × List Char} (h : number? s = some r) (fuel : Nat) :
    value? (fuel + 1) s = some r := by
  obtain ⟨c, t, rfl, hc⟩ := exists_first_of_number? h
  obtain ⟨hbracket, -, hbrace, hquote, -, hconstant⟩ := first_of_number hc
  rw [value?]
  · simp [hbrace, hquote, hconstant, h]
  · exact hbracket

/-- A string is read by `value?` as its text. -/
theorem value?_string (s : String) (fuel : Nat) (rest : List Char) :
    value? (fuel + 1) ((string s).toList ++ rest) = some (.text s, rest) := by
  have htext : (string s).toList ++ rest =
      '\x22' :: (s.toList.flatMap stringChar ++ '\x22' :: rest) := by
    rw [string, String.toList_ofList, List.cons_append, List.cons_append, List.append_assoc,
      List.singleton_append]
  rw [htext, value?]
  · simp [stringTail_flatMap]
  · decide

/-- A value starts with no white space and no closing bracket. -/
theorem exists_first_of_value? {r : Value × List Char} (h : value? fuel s = some r) :
    ∃ c t, s = c :: t ∧ isSpace c = false ∧ c ≠ ']' := by
  cases fuel with
  | zero => cases h
  | succ fuel =>
      cases s with
      | nil => cases h
      | cons c t =>
          have hnone : ∀ d ∈ [' ', '\n', '\r', '\t', ']'], value? (fuel + 1) (d :: t) = none := by
            simp [value?, constant?, after?, number?, magnitude?]
          have hne : ∀ d ∈ [' ', '\n', '\r', '\t', ']'], c ≠ d := by
            rintro d hd rfl
            rw [hnone c hd] at h
            cases h
          refine ⟨c, t, rfl, ?_, hne ']' (by decide)⟩
          simp [isSpace, hne ' ' (by decide), hne '\n' (by decide), hne '\r' (by decide),
            hne '\t' (by decide)]

end Scalars

/-! ## Collections -/

/-- The line `compact v` is read by `value?` as `kept v`, with fuel for twice its length. -/
def ReadsBack (v : Value) : Prop :=
  ∀ fuel rest, 2 * (compact v).length < fuel → StopsBefore continues rest →
    value? fuel ((compact v).toList ++ rest) = some (kept v, rest)

/-- The line of a value starts with no white space and no closing bracket. -/
theorem ReadsBack.exists_first {v : Value} (h : ReadsBack v) :
    ∃ c t, (compact v).toList = c :: t ∧ isSpace c = false ∧ c ≠ ']' := by
  have hread := h _ [] (Nat.lt_succ_self _) (stopsBefore_nil _)
  rw [List.append_nil] at hread
  exact exists_first_of_value? hread

/-- Nothing is skipped in front of another character. -/
theorem skipSpace_cons {c : Char} (h : isSpace c = false) (s : List Char) :
    skipSpace (c :: s) = c :: s := by
  simp [skipSpace, h]

/-- A separator with its space is skipped up to what starts with no white space. -/
theorem skipSpace_separator {s : List Char} (h : ∃ c t, s = c :: t ∧ isSpace c = false)
    (rest : List Char) : skipSpace (' ' :: (s ++ rest)) = s ++ rest := by
  obtain ⟨c, t, rfl, hspace⟩ := h
  simp [skipSpace, hspace, show isSpace ' ' = true from rfl]

section Collections

variable {fuel : Nat} {rest : List Char} {item : Value} {items : List Value}
  {entry : Value × Value} {entries : List (Value × Value)}

/-- The text of items starts as the first one does. -/
theorem exists_first_items (h : ReadsBack item) (items : List Value) :
    ∃ c t, (", ".intercalate (compactItems (item :: items))).toList = c :: t ∧
      isSpace c = false ∧ c ≠ ']' := by
  obtain ⟨c, t, htext, hspace, hbracket⟩ := h.exists_first
  cases items with
  | nil => exact ⟨c, t, by simpa [compactItems] using htext, hspace, hbracket⟩
  | cons next items =>
      refine ⟨c, t ++ (", ".toList ++
        (", ".intercalate (compactItems (next :: items))).toList), ?_, hspace, hbracket⟩
      simp only [compactItems, String.intercalate_cons_cons, String.toList_append, htext,
        List.cons_append, List.append_assoc]

/-- The items of a list are read by `items?` one after the other. -/
theorem items?_compactItems (h : ∀ other ∈ item :: items, ReadsBack other)
    (hfuel : 2 * (", ".intercalate (compactItems (item :: items))).length + 1 < fuel) :
    items? fuel ((", ".intercalate (compactItems (item :: items))).toList ++ ']' :: rest) =
      some (keptItems (item :: items), rest) := by
  -- each item uses up a unit of fuel, and the bound goes down by more than that
  induction items generalizing item fuel with
  | nil =>
      obtain ⟨fuel, rfl⟩ := Nat.exists_eq_add_one_of_ne_zero (Nat.ne_zero_of_lt hfuel)
      simp only [compactItems, String.intercalate_singleton] at hfuel ⊢
      have hitem := h item List.mem_cons_self fuel (']' :: rest) (by omega)
        (stopsBefore_cons.2 rfl)
      rw [items?, hitem]
      rfl
  | cons next items ih =>
      obtain ⟨fuel, rfl⟩ := Nat.exists_eq_add_one_of_ne_zero (Nat.ne_zero_of_lt hfuel)
      have hlater : ∀ other ∈ next :: items, ReadsBack other :=
        fun other hother => h other (List.mem_cons_of_mem _ hother)
      obtain ⟨c, t, hfirst, hspace, -⟩ :=
        exists_first_items (hlater next List.mem_cons_self) items
      have hskip := skipSpace_separator ⟨c, t, hfirst, hspace⟩ (']' :: rest)
      have htext : ", ".intercalate (compactItems (item :: next :: items)) =
          compact item ++ ", " ++ ", ".intercalate (compactItems (next :: items)) :=
        String.intercalate_cons_cons
      rw [htext] at hfuel ⊢
      simp only [String.length_append, show (", " : String).length = 2 from rfl] at hfuel
      have hitems : items? fuel ((", ".intercalate (compactItems (next :: items))).toList ++
          ']' :: rest) = some (keptItems (next :: items), rest) := ih hlater (by omega)
      have hitem := h item List.mem_cons_self fuel (',' :: ' ' ::
        ((", ".intercalate (compactItems (next :: items))).toList ++ ']' :: rest)) (by omega)
        (stopsBefore_cons.2 rfl)
      rw [String.toList_append, String.toList_append, List.append_assoc, List.append_assoc, items?,
        show (", " : String).toList = [',', ' '] from rfl, List.cons_append, List.cons_append,
        List.nil_append, hitem]
      simp only [Option.bind_eq_bind, Option.bind_some,
        skipSpace_cons (show isSpace ',' = false from rfl), hskip, hitems]
      rfl

/-- The text of entries starts with a quote. -/
theorem exists_first_entries (entry : Value × Value) (entries : List (Value × Value)) :
    ∃ t, (", ".intercalate (compactEntries (entry :: entries))).toList = '\x22' :: t := by
  obtain ⟨k, v⟩ := entry
  have hkey : ∃ t, (key k).toList = '\x22' :: t := by
    rw [key_eq, string, String.toList_ofList]
    exact ⟨_, rfl⟩
  obtain ⟨t, hkey⟩ := hkey
  cases entries with
  | nil =>
      simp only [compactEntries, String.intercalate_singleton, String.toList_append, hkey,
        List.cons_append]
      exact ⟨_, rfl⟩
  | cons next entries =>
      obtain ⟨k', v'⟩ := next
      simp only [compactEntries, String.intercalate_cons_cons, String.toList_append, hkey,
        List.cons_append]
      exact ⟨_, rfl⟩

/-- The key of an entry is read by `pairs?` up to its value. -/
theorem pairs?_entry {k v : Value} (hv : ReadsBack v) (behind : List Char)
    (hfuel : 2 * (compact v).length < fuel) (hbehind : StopsBefore continues behind) :
    pairs? (fuel + 1) ((key k ++ ": " ++ compact v).toList ++ behind) =
      match skipSpace behind with
      | ',' :: more => (pairs? fuel (skipSpace more)).bind fun found =>
          some ((.text (keyText k), kept v) :: found.1, found.2)
      | '\x7d' :: more => some ([(.text (keyText k), kept v)], more)
      | _ => none := by
  obtain ⟨c, t, hfirst, hspace, -⟩ := hv.exists_first
  have hskip := skipSpace_separator ⟨c, t, hfirst, hspace⟩ behind
  have htext : (key k ++ ": " ++ compact v).toList ++ behind =
      '\x22' :: ((keyText k).toList.flatMap stringChar ++
        '\x22' :: ':' :: ' ' :: ((compact v).toList ++ behind)) := by
    simp only [key_eq, string, String.toList_append, String.toList_ofList, List.append_assoc,
      List.cons_append, List.nil_append, show (": " : String).toList = [':', ' '] from rfl]
  have hvalue : value? fuel (skipSpace (' ' :: ((compact v).toList ++ behind))) =
      some (kept v, behind) := by
    rw [hskip, hv fuel behind hfuel hbehind]
  rw [htext, pairs?]
  simp only [stringTail_flatMap, List.reverse_nil, List.nil_append, String.ofList_toList,
    Option.bind_eq_bind, Option.bind_some, skipSpace_cons (show isSpace ':' = false from rfl),
    after?, beq_self_eq_true, if_true]
  exact congrArg (Option.bind · _) hvalue

/-- The entries of a mapping are read by `pairs?` one after the other. -/
theorem pairs?_compactEntries (h : ∀ other ∈ entry :: entries, ReadsBack other.2)
    (hfuel : 2 * (", ".intercalate (compactEntries (entry :: entries))).length + 1 < fuel) :
    pairs? fuel ((", ".intercalate (compactEntries (entry :: entries))).toList ++ '\x7d' :: rest) =
      some (keptEntries (entry :: entries), rest) := by
  -- as in a list; the text that is left starts with the quote of the next key
  induction entries generalizing entry fuel with
  | nil =>
      obtain ⟨k, v⟩ := entry
      obtain ⟨fuel, rfl⟩ := Nat.exists_eq_add_one_of_ne_zero (Nat.ne_zero_of_lt hfuel)
      simp only [compactEntries, String.intercalate_singleton, String.length_append] at hfuel ⊢
      have hv : ReadsBack v := h (k, v) List.mem_cons_self
      rw [pairs?_entry hv _ (by omega) (stopsBefore_cons.2 rfl)]
      rfl
  | cons next entries ih =>
      obtain ⟨k, v⟩ := entry
      obtain ⟨k', v'⟩ := next
      obtain ⟨fuel, rfl⟩ := Nat.exists_eq_add_one_of_ne_zero (Nat.ne_zero_of_lt hfuel)
      obtain ⟨t, hfirst⟩ := exists_first_entries (k', v') entries
      have hskip := skipSpace_separator ⟨'\x22', t, hfirst, rfl⟩ ('\x7d' :: rest)
      have htext : ", ".intercalate (compactEntries ((k, v) :: (k', v') :: entries)) =
          key k ++ ": " ++ compact v ++ ", " ++
            ", ".intercalate (compactEntries ((k', v') :: entries)) :=
        String.intercalate_cons_cons
      rw [htext] at hfuel ⊢
      simp only [String.length_append, show (", " : String).length = 2 from rfl] at hfuel
      have hlater : pairs? fuel ((", ".intercalate (compactEntries ((k', v') :: entries))).toList ++
          '\x7d' :: rest) = some (keptEntries ((k', v') :: entries), rest) :=
        ih (fun other hother => h other (List.mem_cons_of_mem _ hother)) (by omega)
      have hv : ReadsBack v := h (k, v) List.mem_cons_self
      rw [String.toList_append, String.toList_append, List.append_assoc, List.append_assoc,
        show (", " : String).toList = [',', ' '] from rfl, List.cons_append, List.cons_append,
        List.nil_append, pairs?_entry hv _ (by omega) (stopsBefore_cons.2 rfl),
        skipSpace_cons (show isSpace ',' = false from rfl)]
      simp only [hskip, hlater]
      rfl

end Collections

/-! ## Lines -/

/-- A list is read as its items. -/
theorem readsBack_list {items : List Value} (h : ∀ item ∈ items, ReadsBack item) :
    ReadsBack (.list items) := by
  intro fuel rest hfuel _
  obtain ⟨fuel, rfl⟩ := Nat.exists_eq_add_one_of_ne_zero (Nat.ne_zero_of_lt hfuel)
  rw [compact] at hfuel ⊢
  simp only [String.length_append, show ("[" : String).length = 1 from rfl,
    show ("]" : String).length = 1 from rfl] at hfuel
  rw [String.toList_append, String.toList_append, List.append_assoc, List.append_assoc]
  cases items with
  | nil => rfl
  | cons item items =>
      obtain ⟨c, t, hfirst, hspace, hbracket⟩ := exists_first_items (h _ List.mem_cons_self) items
      have hitems : items? fuel ((", ".intercalate (compactItems (item :: items))).toList ++
          ']' :: rest) = some (keptItems (item :: items), rest) :=
        items?_compactItems h (by omega)
      have hskip : skipSpace ((", ".intercalate (compactItems (item :: items))).toList ++
          ("]".toList ++ rest)) = (", ".intercalate (compactItems (item :: items))).toList ++
            ']' :: rest := by
        rw [hfirst]
        exact skipSpace_cons hspace _
      rw [show ("[" : String).toList = ['['] from rfl, List.singleton_append, value?, hskip]
      -- no item starts with the bracket that would end an empty list
      split
      · rename_i more heq
        rw [hfirst] at heq
        exact absurd (List.cons.inj heq).1 hbracket
      · simp only [hitems, Option.bind_eq_bind, Option.bind_some, kept]

/-- A tuple is read as the list of its items. -/
theorem readsBack_tuple {items : List Value} (h : ∀ item ∈ items, ReadsBack item) :
    ReadsBack (.tuple items) := by
  have hlist := readsBack_list h
  intro fuel rest hfuel hrest
  rw [compact] at hfuel ⊢
  have hread := hlist fuel rest (by rw [compact]; exact hfuel) hrest
  rw [compact] at hread
  exact hread

/-- A mapping is read as its entries. -/
theorem readsBack_map {entries : List (Value × Value)} (h : ∀ entry ∈ entries, ReadsBack entry.2) :
    ReadsBack (.map entries) := by
  intro fuel rest hfuel _
  obtain ⟨fuel, rfl⟩ := Nat.exists_eq_add_one_of_ne_zero (Nat.ne_zero_of_lt hfuel)
  rw [compact] at hfuel ⊢
  simp only [String.length_append, show ("\x7b" : String).length = 1 from rfl,
    show ("\x7d" : String).length = 1 from rfl] at hfuel
  rw [String.toList_append, String.toList_append, List.append_assoc, List.append_assoc]
  cases entries with
  | nil => rfl
  | cons entry entries =>
      obtain ⟨t, hfirst⟩ := exists_first_entries entry entries
      have hentries : pairs? fuel ((", ".intercalate (compactEntries (entry :: entries))).toList ++
          '\x7d' :: rest) = some (keptEntries (entry :: entries), rest) :=
        pairs?_compactEntries h (by omega)
      have hskip : skipSpace ((", ".intercalate (compactEntries (entry :: entries))).toList ++
          ("\x7d".toList ++ rest)) =
            (", ".intercalate (compactEntries (entry :: entries))).toList ++ '\x7d' :: rest := by
        rw [hfirst]
        exact skipSpace_cons rfl _
      rw [show ("\x7b" : String).toList = ['\x7b'] from rfl, List.singleton_append, value?]
      · simp only [beq_self_eq_true, if_true, hskip]
        split
        · rename_i more heq
          rw [hfirst] at heq
          exact absurd (List.cons.inj heq).1 (by decide)
        · simp only [hentries, Option.bind_eq_bind, Option.bind_some, kept]
      · decide

theorem readsBack_text (s : String) : ReadsBack (.text s) := by
  intro fuel rest hfuel _
  obtain ⟨fuel, rfl⟩ := Nat.exists_eq_add_one_of_ne_zero (Nat.ne_zero_of_lt hfuel)
  exact value?_string s fuel rest

/-- What is written as a number is read as it is. -/
theorem readsBack_number {v : Value}
    (h : ∀ rest, StopsBefore continues rest →
      number? ((compact v).toList ++ rest) = some (kept v, rest)) : ReadsBack v := by
  intro fuel rest hfuel hrest
  obtain ⟨fuel, rfl⟩ := Nat.exists_eq_add_one_of_ne_zero (Nat.ne_zero_of_lt hfuel)
  exact value?_number (h rest hrest) fuel

theorem readsBack_float {x : Binary64} (h : x.IsCanonical) : ReadsBack (.float x) := by
  cases x with
  | finite negative m e =>
      refine readsBack_number fun rest hrest => ?_
      rw [compact, scalar]
      · exact number?_finite h hrest
      all_goals simp
  | infinite negative =>
      cases negative with
      | false =>
          intro fuel rest hfuel _
          obtain ⟨fuel, rfl⟩ := Nat.exists_eq_add_one_of_ne_zero (Nat.ne_zero_of_lt hfuel)
          rfl
      | true => exact readsBack_number fun _ _ => rfl
  | nan =>
      intro fuel rest hfuel _
      obtain ⟨fuel, rfl⟩ := Nat.exists_eq_add_one_of_ne_zero (Nat.ne_zero_of_lt hfuel)
      rfl

/-- A value that `IsWritable` has `ReadsBack`. The induction is on the derivation, so a value is
reached behind its items. -/
theorem IsWritable.readsBack {v : Value} (h : IsWritable v) : ReadsBack v := by
  induction h with
  | null =>
      intro fuel rest hfuel _
      obtain ⟨fuel, rfl⟩ := Nat.exists_eq_add_one_of_ne_zero (Nat.ne_zero_of_lt hfuel)
      rfl
  | bool b =>
      intro fuel rest hfuel _
      obtain ⟨fuel, rfl⟩ := Nat.exists_eq_add_one_of_ne_zero (Nat.ne_zero_of_lt hfuel)
      cases b with
      | false => rfl
      | true => rfl
  | int n hn => exact readsBack_number fun rest hrest => number?_int n hrest
  | float x hx => exact readsBack_float hx
  | text s => exact readsBack_text s
  | list items hitems ih => exact readsBack_list ih
  | tuple items hitems ih => exact readsBack_tuple ih
  | map entries hkeys hvalues ih => exact readsBack_map ih

/-- The line `compact v` of a value that `IsWritable` is parsed as `kept v`. -/
theorem parse?_compact {v : Value} (h : IsWritable v) : parse? (compact v) = some (kept v) := by
  have hread := h.readsBack
  obtain ⟨c, t, hfirst, hspace, -⟩ := hread.exists_first
  have hskip : skipSpace (compact v).toList = (compact v).toList := by
    rw [hfirst]
    exact skipSpace_cons hspace t
  have hvalue := hread (2 * (compact v).toList.length + 2) []
    (by rw [String.length_toList]; omega) (stopsBefore_nil _)
  rw [List.append_nil] at hvalue
  simp only [parse?, hskip, hvalue]
  rfl

/-! ## One line -/

theorem forall_mem_compactItems {P : String → Prop} {items : List Value}
    (h : ∀ item ∈ items, P (compact item)) : ∀ part ∈ compactItems items, P part := by
  induction items with
  | nil => exact fun part hpart => (List.not_mem_nil hpart).elim
  | cons item items ih =>
      obtain ⟨hitem, hrest⟩ := List.forall_mem_cons.1 h
      rw [compactItems, List.forall_mem_cons]
      exact ⟨hitem, ih hrest⟩

theorem forall_mem_compactEntries {P : String → Prop} {entries : List (Value × Value)}
    (h : ∀ entry ∈ entries, P (key entry.1 ++ ": " ++ compact entry.2)) :
    ∀ part ∈ compactEntries entries, P part := by
  induction entries with
  | nil => exact fun part hpart => (List.not_mem_nil hpart).elim
  | cons entry entries ih =>
      obtain ⟨hentry, hrest⟩ := List.forall_mem_cons.1 h
      rw [compactEntries, List.forall_mem_cons]
      exact ⟨hentry, ih hrest⟩

theorem oneLine_float {x : Binary64} (h : x.IsCanonical) : OneLine (scalar (.float x)) := by
  cases x with
  | finite negative m e =>
      rw [scalar]
      · exact newline_notMem_finite h negative
      all_goals simp
  | infinite negative =>
      cases negative with
      | false => decide
      | true => decide
  | nan => decide

/-- The line `compact v` of a value that `IsWritable` has no `\n`. -/
theorem oneLine_compact {v : Value} (h : IsWritable v) : OneLine (compact v) := by
  have hseparator : OneLine ", " := by decide
  induction h with
  | null => decide
  | bool b =>
      cases b with
      | false => decide
      | true => decide
  | int n hn => exact newline_notMem_int n
  | float x hx => exact oneLine_float hx
  | text s => exact oneLine_string s
  | list items hitems ih =>
      rw [compact]
      exact (OneLine.append (by decide)
        (hseparator.intercalate (forall_mem_compactItems ih))).append
        (by decide)
  | tuple items hitems ih =>
      rw [compact]
      exact (OneLine.append (by decide)
        (hseparator.intercalate (forall_mem_compactItems ih))).append
        (by decide)
  | map entries hkeys hvalues ih =>
      have hentries : ∀ entry ∈ entries, OneLine (key entry.1 ++ ": " ++ compact entry.2) := by
        intro entry hentry
        rw [key_eq]
        exact ((oneLine_string _).append (by decide)).append (ih entry hentry)
      rw [compact]
      exact (OneLine.append (by decide)
        (hseparator.intercalate (forall_mem_compactEntries hentries))).append (by decide)

/-! ## Values that are kept -/

/-- The text of a mapping with different text keys keeps the entries with what is kept of their
values. -/
theorem kept_ofFields {fields : List (String × Value)} (h : (fields.map (·.1)).Nodup) :
    kept (.ofFields fields) = .ofFields (fields.map fun field => (field.1, kept field.2)) := by
  have hentries : keptEntries (Value.texts fields) =
      Value.texts (fields.map fun field => (field.1, kept field.2)) := by
    clear h
    induction fields with
    | nil => rfl
    | cons field fields ih =>
        obtain ⟨k, v⟩ := field
        exact congrArg _ ih
  have hnodup : ((fields.map fun field => (field.1, kept field.2)).map (·.1)).Nodup := by
    rw [List.map_map]
    exact h
  rw [Value.ofFields, kept]
  exact congrArg Value.map ((congrArg _ hentries).trans (Value.ofPairs_texts hnodup))

/-- The value is its own `kept` value: all keys in it are texts, different ones in a mapping, and
there are no tuples, sets, bytes, dates and moments. -/
inductive HasForm : Value → Prop where
  | null : HasForm .null
  | bool (b : Bool) : HasForm (.bool b)
  | int (n : Int) : HasForm (.int n)
  | float (x : Binary64) : HasForm (.float x)
  | text (s : String) : HasForm (.text s)
  | list (items : List Value) (h : ∀ item ∈ items, HasForm item) : HasForm (.list items)
  | map (fields : List (String × Value)) (hkeys : (fields.map (·.1)).Nodup)
      (h : ∀ field ∈ fields, HasForm field.2) : HasForm (.ofFields fields)

/-- A value that `HasForm` is kept as it is. -/
theorem kept_eq_self {v : Value} (h : HasForm v) : kept v = v := by
  induction h with
  | null => rfl
  | bool b => rfl
  | int n => rfl
  | float x => rfl
  | text s => rfl
  | list items hitems ih =>
      rw [kept]
      congr 1
      clear hitems
      induction items with
      | nil => rfl
      | cons item items ihitems =>
          obtain ⟨hitem, hrest⟩ := List.forall_mem_cons.1 ih
          rw [keptItems, hitem, ihitems hrest]
  | map fields hkeys hfields ih =>
      rw [kept_ofFields hkeys]
      congr 1
      conv_rhs => rw [← List.map_id fields]
      exact List.map_congr_left fun field hfield => Prod.ext rfl (ih field hfield)

end FileClerk.Json
