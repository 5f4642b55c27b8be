import FileClerk.Collection.Basic

/-!
# Selections as filters

Every selection of records keeps the records with one property, in their order. This module names
the three properties and shows that `withTypes`, `withSize` and `withName` are the filters by them
(`withTypes_eq_filter`, `withSize_eq_filter`, `withName_eq_filter`). What the selections have in
common follows from that: they give sublists, and they leave a collection alone whose records all
have the property.
-/

set_option autoImplicit false

namespace FileClerk.Collection

open FileClerk.Text FileClerk.Command

/-! ## The properties -/

/-- The test of `filter_by_types`: no extension is wanted, or `r.extension` is among the wanted
ones. -/
def hasType (extensions : List String) (r : Record) : Bool :=
  extensions.isEmpty || (extensions.map lowered).contains (lowered r.extension)

/-- The test of `filter_by_size`: `r.size` lies beyond the threshold, if there is one. -/
def hasSize (threshold : Option Threshold) (r : Record) : Bool :=
  threshold.all fun t => t.admits r.size

/-- The test of `filter_by_name`: `r.name` contains the term, if there is one. -/
def hasName (term : Option (List Char)) (r : Record) : Bool :=
  term.all fun t => t.isEmpty || nameContains t r

/-- Extensions are compared by `lowered`. -/
theorem hasType_eq_true_iff {extensions : List String} {r : Record} :
    hasType extensions r = true ↔
      extensions = [] ∨ ∃ x ∈ extensions, lowered x = lowered r.extension := by
  rw [hasType, Bool.or_eq_true, List.isEmpty_iff, List.contains_iff_mem, List.mem_map]

/-- The wanted extensions are used as a set. -/
theorem hasType_congr {extensions extensions' : List String}
    (h : ∀ x, x ∈ extensions ↔ x ∈ extensions') (r : Record) :
    hasType extensions r = hasType extensions' r := by
  have hempty : extensions.isEmpty = extensions'.isEmpty := by
    rw [Bool.eq_iff_iff, List.isEmpty_iff, List.isEmpty_iff, List.eq_nil_iff_forall_not_mem,
      List.eq_nil_iff_forall_not_mem]
    exact forall_congr' fun x => not_congr (h x)
  have hcontains : (extensions.map lowered).contains (lowered r.extension) =
      (extensions'.map lowered).contains (lowered r.extension) := by
    rw [Bool.eq_iff_iff, List.contains_iff_mem, List.contains_iff_mem, List.mem_map, List.mem_map]
    exact exists_congr fun x => and_congr_left' (h x)
  rw [hasType, hasType, hempty, hcontains]

/-! ## Selections are filters -/

theorem withTypes_eq_filter (extensions : List String) (files : List Record) :
    withTypes extensions files = files.filter (hasType extensions) := by
  unfold withTypes
  by_cases h : extensions.isEmpty
  · rw [if_pos h, List.filter_eq_self.2]
    intro r _
    simp [hasType, h]
  · rw [if_neg h]
    apply List.filter_congr
    intro r _
    simp [hasType, h]

theorem withSize_eq_filter (threshold : Option Threshold) (files : List Record) :
    withSize threshold files = files.filter (hasSize threshold) := by
  cases threshold with
  | none =>
      rw [List.filter_eq_self.2]
      · rfl
      · intro r _
        rfl
  | some t => rfl

theorem withName_eq_filter (term : Option (List Char)) (files : List Record) :
    withName term files = files.filter (hasName term) := by
  cases term with
  | none =>
      rw [List.filter_eq_self.2]
      · rfl
      · intro r _
        rfl
  | some t =>
      by_cases h : t.isEmpty
      · have hall : ∀ r ∈ files, hasName (some t) r = true := by
          intro r _
          simp [hasName, h]
        rw [List.filter_eq_self.2 hall]
        simp [withName, h]
      · simp only [withName, if_neg h]
        apply List.filter_congr
        intro r _
        simp [hasName, h]

/-! ## What selections keep -/

theorem withTypes_sublist (extensions : List String) (files : List Record) :
    (withTypes extensions files).Sublist files := by
  rw [withTypes_eq_filter]
  exact List.filter_sublist

theorem withSize_sublist (threshold : Option Threshold) (files : List Record) :
    (withSize threshold files).Sublist files := by
  rw [withSize_eq_filter]
  exact List.filter_sublist

theorem withName_sublist (term : Option (List Char)) (files : List Record) :
    (withName term files).Sublist files := by
  rw [withName_eq_filter]
  exact List.filter_sublist

theorem mem_withTypes {extensions : List String} {files : List Record} {r : Record} :
    r ∈ withTypes extensions files ↔ r ∈ files ∧ hasType extensions r = true := by
  rw [withTypes_eq_filter, List.mem_filter]

theorem mem_withSize {threshold : Option Threshold} {files : List Record} {r : Record} :
    r ∈ withSize threshold files ↔ r ∈ files ∧ hasSize threshold r = true := by
  rw [withSize_eq_filter, List.mem_filter]

theorem mem_withName {term : Option (List Char)} {files : List Record} {r : Record} :
    r ∈ withName term files ↔ r ∈ files ∧ hasName term r = true := by
  rw [withName_eq_filter, List.mem_filter]

/-- A collection of records with wanted extensions is selected whole. -/
theorem withTypes_eq_self {extensions : List String} {files : List Record}
    (h : ∀ r ∈ files, hasType extensions r = true) : withTypes extensions files = files := by
  rw [withTypes_eq_filter, List.filter_eq_self.2 h]

/-- A collection of records with wanted sizes is selected whole. -/
theorem withSize_eq_self {threshold : Option Threshold} {files : List Record}
    (h : ∀ r ∈ files, hasSize threshold r = true) : withSize threshold files = files := by
  rw [withSize_eq_filter, List.filter_eq_self.2 h]

/-- Records that `withTypes` and `withSize` selected are selected again, whichever of them are left.
-/
theorem withSize_withTypes_eq_self {threshold : Option Threshold} {extensions : List String}
    {files part : List Record}
    (h : ∀ r ∈ part, r ∈ withSize threshold (withTypes extensions files)) :
    withSize threshold (withTypes extensions part) = part := by
  have htypes : withTypes extensions part = part := by
    apply withTypes_eq_self
    intro r hr
    exact (mem_withTypes.1 (mem_withSize.1 (h r hr)).1).2
  rw [htypes]
  apply withSize_eq_self
  intro r hr
  exact (mem_withSize.1 (h r hr)).2

/-- A collection of records with wanted names is selected whole. -/
theorem withName_eq_self {term : Option (List Char)} {files : List Record}
    (h : ∀ r ∈ files, hasName term r = true) : withName term files = files := by
  rw [withName_eq_filter, List.filter_eq_self.2 h]

end FileClerk.Collection
