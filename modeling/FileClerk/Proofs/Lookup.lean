import Mathlib.Data.List.Basic

/-!
# Lists of entries

What is found under a name in a list of entries is the value of one of them (`mem_of_lookup`). The
list may be made of another one with other values (`lookup_map_snd`), or of what is known of some
names (`lookup_filterMap`).
-/

set_option autoImplicit false

namespace FileClerk

section Lookup

variable {α β γ : Type} [BEq α] {entries : List (α × β)} {k : α} {v : β}

/-- What `lookup` finds is the value of an entry with this name. -/
theorem mem_of_lookup [LawfulBEq α] (h : entries.lookup k = some v) : (k, v) ∈ entries := by
  obtain ⟨before, behind, hentries, -⟩ := List.lookup_eq_some_iff.1 h
  rw [hentries]
  exact List.mem_append_right before List.mem_cons_self

/-- What is found in a list with changed values. -/
theorem lookup_map_snd (g : β → γ) (k : α) (entries : List (α × β)) :
    (entries.map fun entry => (entry.1, g entry.2)).lookup k = (entries.lookup k).map g := by
  induction entries with
  | nil => rfl
  | cons entry entries ih =>
      rw [List.map_cons, List.lookup_cons, List.lookup_cons]
      cases k == entry.1 with
      | true => rfl
      | false => exact ih

end Lookup

section Shown

variable {α β : Type} {f : α → Option β} {names : List α}

/-- What is known of some names stands under these names, in their order. -/
theorem map_fst_filterMap :
    ((names.filterMap fun name => (f name).map fun value => (name, value)).map (·.1)).Sublist
      names := by
  induction names with
  | nil => exact List.Sublist.slnil
  | cons name names ih =>
      cases hvalue : f name with
      | none =>
          rw [List.filterMap_cons_none (by rw [hvalue, Option.map_none])]
          exact ih.cons name
      | some value =>
          rw [List.filterMap_cons_some (by rw [hvalue, Option.map_some]), List.map_cons]
          exact ih.cons_cons name

/-- What `f` knows of some names is found under them. -/
theorem lookup_filterMap [DecidableEq α] (name : α) :
    (names.filterMap fun name => (f name).map fun value => (name, value)).lookup name =
      if name ∈ names then f name else none := by
  induction names with
  | nil => rfl
  | cons other names ih =>
      by_cases hname : name = other
      · subst hname
        cases hvalue : f name with
        | none => simp [hvalue, ih]
        | some value => simp [hvalue]
      · have hother : (name == other) = false := beq_eq_false_iff_ne.2 hname
        cases hvalue : f other with
        | none => simp [hvalue, ih, hname]
        | some value => simp [List.lookup_cons, hvalue, ih, hname, hother]

end Shown

end FileClerk
