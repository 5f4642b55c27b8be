import FileClerk.Proofs.Collection.Select
import FileClerk.Proofs.Command.NameTerm
import FileClerk.Proofs.Text.LetterCase
import FileClerk.Proofs.Text.Sigma

/-!
# Parts of names as terms

A selection by name puts the term and the names of the records into lower case, each by itself, and
looks for the one in the other. The case of ASCII letters in the term does not count
(`withName_eq_of_map_toLower_eq`). A term that stands in a name as it is written is found there
unless it has a capital sigma whose form depends on what stands around the term: the sigma at the
end of "ΟΔΟΣ" is a final one, and inside of "ΟΔΟΣΗΜΑ" it is not. The terms that are found wherever
they stand are those whose capital sigmas are settled (`withName_finds_part_iff`).
-/

set_option autoImplicit false

namespace FileClerk.Collection

open FileClerk.Text FileClerk.Command

variable {t t' : List Char}

/-- The function `hasName` compares `lower t` with the name in lower case. The empty term stands in
every name, as the empty text does. -/
theorem hasName_some_iff {r : Record} :
    hasName (some t) r = true ↔ lower t <:+: lower r.name.toList := by
  rw [hasName, Option.all_some, Bool.or_eq_true, List.isEmpty_iff, nameContains,
    occursIn_iff_infix]
  constructor
  · rintro (rfl | hinfix)
    · exact List.nil_infix
    · exact hinfix
  · exact Or.inr

/-- The function `withName` does not depend on the case of ASCII letters in the term. -/
theorem withName_eq_of_map_toLower_eq (h : t'.map Char.toLower = t.map Char.toLower)
    (files : List Record) : withName (some t') files = withName (some t) files := by
  have hlower : lower t' = lower t := by
    rw [← lower_map_toLower t', h, lower_map_toLower]
  rw [withName_eq_filter, withName_eq_filter]
  apply List.filter_congr
  intro r _
  rw [Bool.eq_iff_iff, hasName_some_iff, hasName_some_iff, hlower]

/-- A part `t` of a name with `SigmasSettled t` is found in the name. -/
theorem mem_withName_of_infix (hsettled : SigmasSettled t) {files : List Record} {r : Record}
    (hr : r ∈ files) (hpart : t <:+: r.name.toList) : r ∈ withName (some t) files := by
  apply mem_withName.2
  refine ⟨hr, ?_⟩
  rw [hasName_some_iff]
  exact hsettled.lower_infix hpart

/-- A term that `withName` finds in every name that it is a part of has `SigmasSettled`. -/
theorem sigmasSettled_of_forall_mem_withName
    (h : ∀ (files : List Record), ∀ r ∈ files, t <:+: r.name.toList →
      r ∈ withName (some t) files) : SigmasSettled t := by
  apply lower_infix_iff.1
  intro s hpart
  -- every text is the name of a record
  let r : Record := ⟨"1", String.ofList s, "", 0, ⟨0, none⟩, ""⟩
  have hname : r.name.toList = s := String.toList_ofList
  have hfound := h [r] r (List.mem_singleton_self r) (hname.symm ▸ hpart)
  rw [mem_withName, hasName_some_iff, hname] at hfound
  exact hfound.2

/-- The function `withName` finds a term in all names that it is a part of exactly if
`SigmasSettled` holds of it. Whatever the term is, it selects records of the collection in their
order, and the case of its ASCII letters does not count. -/
theorem withName_finds_part_iff (t : List Char) :
    ((∀ (files : List Record), ∀ r ∈ files, t <:+: r.name.toList →
        r ∈ withName (some t) files) ↔ SigmasSettled t) ∧
      ∀ files : List Record, (withName (some t) files).Sublist files ∧
        ∀ t', t'.map Char.toLower = t.map Char.toLower →
          withName (some t') files = withName (some t) files := by
  constructor
  · constructor
    · exact sigmasSettled_of_forall_mem_withName
    · intro hsettled files r hr hpart
      exact mem_withName_of_infix hsettled hr hpart
  · intro files
    refine ⟨withName_sublist _ _, ?_⟩
    intro t' hcase
    exact withName_eq_of_map_toLower_eq hcase files

/-- The word `ΟΔΟΣ` is a part of `ΟΔΟΣΗΜΑ.txt` that `withName` does not find there: its last sigma
is a final one only where the term stands alone. -/
theorem part_of_name_not_found :
    ¬ ∀ (files : List Record), ∀ r ∈ files, ∀ t, t ≠ [] → t <:+: r.name.toList →
      r ∈ withName (some t) files := by
  intro h
  let r : Record := ⟨"1", "ΟΔΟΣΗΜΑ.txt", "txt", 10, ⟨0, none⟩, ""⟩
  have hfound := h [r] r (List.mem_singleton_self r) "ΟΔΟΣ".toList (by decide) (by decide)
  exact absurd hfound (by decide +kernel)

end FileClerk.Collection
