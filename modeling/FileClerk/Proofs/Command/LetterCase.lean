import FileClerk.Proofs.Command.PhrasePlace

/-!
# Letter case in destinations

A destination is read from the command as it is written. Two commands that differ in the case of
ASCII letters, and only outside of bracket groups (`CaseVariant`), name the same folder
(`CaseVariant.namedFolder?_eq`). The bracket groups of the two commands stand in the same places
and have the same contents. Their folder phrases stand in the same places too, since the words of a
phrase are compared with letter case ignored, and a name in a phrase is put into lower case before
it is used.
-/

set_option autoImplicit false

namespace FileClerk.Command

open FileClerk.Text

/-! ## Variants -/

/-- The characters `c` and `d` are one ASCII letter, each in either case. -/
def SameLetter (c d : Char) : Prop :=
  c.isAlpha = true ∧ d.isAlpha = true ∧ c.toLower = d.toLower

instance (c d : Char) : Decidable (SameLetter c d) := inferInstanceAs (Decidable (_ ∧ _ ∧ _))

/-- The place `n` lies between a `[` and a `]` with no other bracket between them. -/
def InsideGroup (s : List Char) (n : Nat) : Prop :=
  ∃ front body back, s = front ++ '[' :: (body ++ ']' :: back) ∧ BracketFree body ∧
    front.length < n ∧ n ≤ front.length + body.length

/-- The texts `s` and `t` have one length, and where they differ they have a `SameLetter` outside of
bracket groups. -/
structure CaseVariant (s t : List Char) : Prop where
  length_eq : s.length = t.length
  place : ∀ n c d, s[n]? = some c → t[n]? = some d → c ≠ d → SameLetter c d ∧ ¬ InsideGroup s n

/-- A place in a group stays in it when text is put before and behind. -/
theorem InsideGroup.append {s : List Char} {n : Nat} (h : InsideGroup s n)
    (left right : List Char) : InsideGroup (left ++ (s ++ right)) (left.length + n) := by
  obtain ⟨front, body, back, rfl, hbody, hfirst, hlast⟩ := h
  refine ⟨left ++ front, body, back ++ right, by simp, hbody, ?_, ?_⟩
  · rw [List.length_append]
    omega
  · rw [List.length_append]
    omega

namespace CaseVariant

variable {s t : List Char}

/-- Parts that stand in the same places are variants of each other. -/
theorem of_append {left left' right right' : List Char}
    (h : CaseVariant (left ++ (s ++ right)) (left' ++ (t ++ right')))
    (hleft : left.length = left'.length) (hlength : s.length = t.length) : CaseVariant s t where
  length_eq := hlength
  place := by
    -- the place of a character of a part in the whole text
    have hplace : ∀ {u v w : List Char} {n : Nat} {c : Char}, v[n]? = some c →
        (u ++ (v ++ w))[u.length + n]? = some c := by
      intro u v w n c hc
      rw [List.getElem?_append_right (Nat.le_add_right _ _), Nat.add_sub_cancel_left,
        List.getElem?_append_left (List.getElem?_eq_some_iff.1 hc).1]
      exact hc
    intro n c d hc hd hne
    obtain ⟨hletter, houtside⟩ := h.place (left.length + n) c d (hplace hc) (hleft ▸ hplace hd) hne
    exact ⟨hletter, fun hinside => houtside (hinside.append left right)⟩

theorem tail {c d : Char} (h : CaseVariant (c :: s) (d :: t)) : CaseVariant s t := by
  have hwhole : CaseVariant ([c] ++ (s ++ [])) ([d] ++ (t ++ [])) := by simpa using h
  exact hwhole.of_append rfl (Nat.succ.inj h.length_eq)

/-- Variants are the same text once their ASCII letters are in lower case. -/
theorem map_toLower_eq (h : CaseVariant s t) : s.map Char.toLower = t.map Char.toLower := by
  apply List.ext_getElem
  · simpa using h.length_eq
  · intro n hn hn'
    rw [List.length_map] at hn hn'
    rw [List.getElem_map, List.getElem_map]
    by_cases hsame : s[n] = t[n]
    · rw [hsame]
    · exact (h.place n s[n] t[n] (List.getElem?_eq_getElem hn) (List.getElem?_eq_getElem hn')
        hsame).1.2.2

end CaseVariant

/-- Two characters that are equal in lower case are one letter in two cases. -/
theorem sameLetter_of_toLower_eq {c d : Char} (hne : c ≠ d) (h : c.toLower = d.toLower) :
    SameLetter c d := by
  have hsame : c.isAlpha = d.isAlpha := by
    have halpha : ∀ e : Char, e.toLower.isAlpha = e.isAlpha := congr_toLower (by decide +kernel)
    rw [← halpha c, h, halpha d]
  have hself : ∀ e : Char, e.isAlpha = false → e.toLower = e := by
    intro e
    by_cases hascii : e.toNat < 128
    · exact forall_ascii (P := fun e => e.isAlpha = false → e.toLower = e) (by decide +kernel)
        hascii
    · exact fun _ => toLower_eq_self hascii
  cases hc : c.isAlpha with
  | true => exact ⟨hc, hsame ▸ hc, h⟩
  | false =>
      exfalso
      apply hne
      rw [← hself c hc, h, hself d (hsame ▸ hc)]

/-- Letter case is free in front of the first `[`. -/
theorem CaseVariant.of_front {front front' : List Char} (hfree : BracketFree front)
    (h : front.map Char.toLower = front'.map Char.toLower) (back : List Char) :
    CaseVariant (front ++ back) (front' ++ back) where
  length_eq := by
    have hlength := congrArg List.length h
    simpa using hlength
  place := by
    have hlength : front.length = front'.length := by simpa using congrArg List.length h
    intro n c d hc hd hne
    rcases Nat.lt_or_ge n front.length with hn | hn
    · rw [List.getElem?_append_left hn] at hc
      rw [List.getElem?_append_left (hlength ▸ hn)] at hd
      have hlower : c.toLower = d.toLower := by
        have hplace := congrArg (fun u => u[n]?) h
        simpa [hc, hd] using hplace
      refine ⟨sameLetter_of_toLower_eq hne hlower, ?_⟩
      -- the bracket that opens a group around the place would stand in front of it
      rintro ⟨outer, body, rest, hgroup, -, hfirst, -⟩
      have hopen : front[outer.length]? = some '[' := by
        rw [← List.getElem?_append_left (Nat.lt_trans hfirst hn), hgroup]
        simp
      have hnot := hfree '[' (List.mem_of_getElem? hopen)
      cases hnot
    · -- from there on the texts are the same
      rw [List.getElem?_append_right hn] at hc
      rw [List.getElem?_append_right (hlength ▸ hn), ← hlength, hc] at hd
      exact absurd (Option.some.inj hd) hne

/-! ## Bracket groups -/

theorem isBracket_toLower (c : Char) : isBracket c.toLower = isBracket c :=
  congr_toLower (by decide) c

/-- No other character is a bracket in lower case. -/
theorem eq_of_toLower_eq {c bracket : Char} (hbracket : isBracket bracket = true)
    (h : c.toLower = bracket) : c = bracket := by
  have hc : isBracket c = true := by rw [← isBracket_toLower, h, hbracket]
  rcases (isBracket_iff c).1 hc with rfl | rfl
  · exact h
  · exact h

theorem bracketFree_map_toLower {s : List Char} :
    BracketFree (s.map Char.toLower) ↔ BracketFree s := by
  simp [BracketFree, isBracket_toLower]

/-- A text starts with a bracket group if it does so in lower case. -/
theorem exists_group_of_map {s body back : List Char} (hbody : BracketFree body)
    (h : s.map Char.toLower = '[' :: (body.map Char.toLower ++ ']' :: back)) :
    ∃ body' back', s = '[' :: (body' ++ ']' :: back') ∧ BracketFree body' ∧
      body'.map Char.toLower = body.map Char.toLower := by
  obtain ⟨first, rest, rfl, hfirst, hrest⟩ := List.map_eq_cons_iff.1 h
  obtain ⟨body', tail, rfl, hbody', htail⟩ := List.map_eq_append_iff.1 hrest
  obtain ⟨last, back', rfl, hlast, -⟩ := List.map_eq_cons_iff.1 htail
  obtain rfl := eq_of_toLower_eq rfl hfirst
  obtain rfl := eq_of_toLower_eq rfl hlast
  refine ⟨body', back', rfl, ?_, hbody'⟩
  rw [← bracketFree_map_toLower, hbody', bracketFree_map_toLower]
  exact hbody

namespace CaseVariant

variable {s t : List Char}

/-- A bracket group keeps its contents. -/
theorem exists_group_of_group {body back : List Char}
    (h : CaseVariant ('[' :: (body ++ ']' :: back)) t) (hbody : BracketFree body) :
    ∃ back', t = '[' :: (body ++ ']' :: back') := by
  have hmap := h.map_toLower_eq.symm
  rw [List.map_cons, List.map_append, List.map_cons] at hmap
  obtain ⟨body', back', rfl, -, hbody'⟩ := exists_group_of_map hbody hmap
  have hlength : body'.length = body.length := by simpa using congrArg List.length hbody'
  suffices hsame : body' = body by exact ⟨back', by rw [hsame]⟩
  apply List.ext_getElem hlength
  intro n hn hn'
  -- where the contents differ, the place would lie inside of the group
  by_contra hne
  have hplace : ∀ {u w : List Char} (hu : n < u.length),
      ('[' :: (u ++ w))[n + 1]? = some u[n] := by
    intro u w hu
    rw [List.getElem?_cons_succ, List.getElem?_append_left hu, List.getElem?_eq_getElem hu]
  refine (h.place (n + 1) _ _ (hplace hn') (hplace hn) (Ne.symm hne)).2 ?_
  refine ⟨[], body, back, rfl, hbody, Nat.succ_pos n, ?_⟩
  rw [List.length_nil, Nat.zero_add]
  exact hn'

/-- The reader `bracketGroup` reads the same group at a place of both, or none. -/
theorem bracketGroup_eq (h : CaseVariant s t) (before before' : Option Char) :
    bracketGroup before s = bracketGroup before' t := by
  apply Option.ext
  rintro ⟨body, n⟩
  rw [bracketGroup_eq_some_iff, bracketGroup_eq_some_iff]
  refine and_congr_right fun _ => and_congr_right fun hbody => ?_
  constructor
  · rintro ⟨back, rfl⟩
    exact h.exists_group_of_group hbody
  · rintro ⟨back, rfl⟩
    have hmap := h.map_toLower_eq
    rw [List.map_cons, List.map_append, List.map_cons] at hmap
    obtain ⟨body', back', rfl, hfree, -⟩ := exists_group_of_map hbody hmap
    obtain ⟨back'', hsame⟩ := h.exists_group_of_group hfree
    -- the two ways to read the group of the second text have one result
    have hread := bracketGroup_append hbody none back
    rw [hsame, bracketGroup_append hfree, Option.some.injEq, Prod.mk.injEq] at hread
    exact ⟨back', by rw [hread.1]⟩

theorem agree_bracketGroup (h : CaseVariant s t) (before before' : Option Char) :
    Agree bracketGroup id before before' s t := by
  induction s generalizing t before before' with
  | nil =>
      obtain rfl := List.length_eq_zero_iff.1 h.length_eq.symm
      exact .nil
  | cons c rest ih =>
      obtain ⟨d, rest', rfl⟩ := List.exists_cons_of_length_eq_add_one h.length_eq.symm
      exact .cons (by rw [h.bracketGroup_eq before before']) (ih h.tail (some c) (some d))

/-- The `readings` of `bracketGroup` agree, contents included. -/
theorem readings_bracketGroup_eq (h : CaseVariant s t) :
    readings bracketGroup s = readings bracketGroup t := by
  have heq := (h.agree_bracketGroup none none).readings_eq
  rwa [List.map_id, List.map_id] at heq

/-- Both are trimmed in the same places. -/
theorem trim (h : CaseVariant s t) : CaseVariant (trim s) (trim t) := by
  have hmap := h.map_toLower_eq
  have hleft := congrArg (fun u => (u.takeWhile isBlank).length) hmap
  have htrim := congrArg (fun u => (Text.trim u).length) hmap
  simp only [takeWhile_map_of_forall isBlank_toLower, trim_map_toLower, List.length_map]
    at hleft htrim
  rw [← takeWhile_append_trim_append s, ← takeWhile_append_trim_append t] at h
  exact h.of_append hleft htrim

end CaseVariant

/-! ## Folder phrases -/

/-- Words are joined in lower case as they are joined before. -/
theorem intercalate_map_toLower (words : List (List Char)) :
    [' '].intercalate (words.map (List.map Char.toLower)) =
      ([' '].intercalate words).map Char.toLower := by
  match words with
  | [] => rfl
  | [word] => simp
  | first :: second :: more =>
      have hrest := intercalate_map_toLower (second :: more)
      rw [List.map_cons] at hrest
      rw [List.map_cons, List.map_cons, List.intercalate_cons_cons, hrest,
        List.intercalate_cons_cons, List.map_append, List.map_append]
      rfl

/-- The function `phraseName` does not depend on letter case. -/
theorem phraseName_map_toLower (words : List (List Char)) :
    phraseName (words.map (List.map Char.toLower)) = phraseName words := by
  rw [phraseName, phraseName, intercalate_map_toLower, lower_map_toLower]

/-- The name that is read at a place, and how many characters it takes up, are given by the text in
lower case. -/
theorem folderPhrase_name_eq (before : Option Char) (s : List Char) :
    (folderPhrase before s).map (Prod.map phraseName id) =
      (folderPhrase (before.map Char.toLower) (s.map Char.toLower)).map
        (Prod.map phraseName id) := by
  rw [keepsReading_toLower.folderPhrase_map, Option.map_map]
  congr 1
  funext found
  -- the length is that of the text, and the name is put into lower case in either way
  obtain ⟨words, length⟩ := found
  rw [Function.comp_apply, Prod.map_apply, Prod.map_apply, Prod.map_apply, phraseName_map_toLower]
  rfl

theorem agree_folderPhrase {s t : List Char} (h : s.map Char.toLower = t.map Char.toLower)
    {before before' : Option Char} (hbefore : before.map Char.toLower = before'.map Char.toLower) :
    Agree folderPhrase phraseName before before' s t := by
  induction s generalizing t before before' with
  | nil =>
      obtain rfl := List.map_eq_nil_iff.1 h.symm
      exact .nil
  | cons c rest ih =>
      obtain ⟨d, rest', rfl, hchar, hrest⟩ := List.map_eq_cons_iff.1 h.symm
      refine .cons ?_ (ih hrest.symm (congrArg some hchar.symm))
      rw [folderPhrase_name_eq, folderPhrase_name_eq before', h, hbefore]

/-! ## Named folders -/

/-- The reader `phraseFolder?` does not depend on letter case. -/
theorem phraseFolder?_congr {s t : List Char} (h : s.map Char.toLower = t.map Char.toLower) :
    phraseFolder? s = phraseFolder? t := by
  rw [phraseFolder?, phraseFolder?, (agree_folderPhrase h rfl).readings_eq]

namespace CaseVariant

variable {s t : List Char}

theorem namedFolder?_eq (h : CaseVariant s t) : namedFolder? s = namedFolder? t := by
  rw [namedFolder?, namedFolder?, bracketFolder?, bracketFolder?, h.readings_bracketGroup_eq,
    phraseFolder?_congr h.map_toLower_eq]

theorem lower_eq (h : CaseVariant s t) : lower s = lower t := by
  rw [← lower_map_toLower s, h.map_toLower_eq, lower_map_toLower]

end CaseVariant

end FileClerk.Command
