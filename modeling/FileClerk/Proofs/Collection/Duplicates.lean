import Mathlib.Data.List.Perm.Subperm
import FileClerk.Collection.Basic

/-!
# Clusters of possible duplicates

The records of one size and extension form a group, and the clusters are the groups of the shared
keys: of those keys that at least two records have (`duplicates_eq_flatMap`). Groups of distinct
keys are disjoint parts of the collection, so no record occurs more often among the duplicates than
in the collection (`duplicates_subperm`). The groups of the duplicates are the clusters again, in
the same order, so looking for duplicates among them finds all of them (`duplicates_duplicates`).
-/

set_option autoImplicit false

namespace FileClerk.Collection

/-- The records `r` with `duplicateKey r = key`. -/
def group (files : List Record) (key : Nat × String) : List Record :=
  files.filter fun r => duplicateKey r == key

/-- The keys of at least two records, as `find_duplicate_clusters` lists them: in the order
of their first records. -/
def sharedKeys (files : List Record) : List (Nat × String) :=
  (duplicateKeys files).filter fun key => (group files key).length > 1

/-! ## Groups -/

theorem mem_group {files : List Record} {key : Nat × String} {r : Record} :
    r ∈ group files key ↔ r ∈ files ∧ duplicateKey r = key := by
  simp [group]

theorem clusters_eq_map (files : List Record) :
    clusters files = (sharedKeys files).map (group files) := by
  unfold clusters sharedKeys
  rw [List.filter_map]
  rfl

theorem duplicates_eq_flatMap (files : List Record) :
    duplicates files = (sharedKeys files).flatMap (group files) := by
  rw [duplicates, clusters_eq_map, List.flatMap_def]

theorem eraseDups_nodup : ∀ keys : List (Nat × String), keys.eraseDups.Nodup
  | [] => List.nodup_nil
  | key :: rest => by
      have hlen := List.length_filter_le (fun k => !k == key) rest
      rw [List.eraseDups_cons, List.nodup_cons]
      refine ⟨?_, eraseDups_nodup (rest.filter fun k => !k == key)⟩
      rw [List.mem_eraseDups, List.mem_filter]
      simp
termination_by keys => keys.length
decreasing_by
  simp only [List.length_cons]
  omega

theorem sharedKeys_nodup (files : List Record) : (sharedKeys files).Nodup :=
  (eraseDups_nodup _).filter _

theorem group_ne_nil {files : List Record} {key : Nat × String}
    (h : key ∈ sharedKeys files) : group files key ≠ [] := by
  intro hnil
  simp [sharedKeys, hnil] at h

/-! ## Duplicates are part of the collection -/

/-- The group of another key is untouched by leaving out the records of `key`. -/
theorem group_filter_ne {key other : Nat × String} (files : List Record) (h : other ≠ key) :
    group (files.filter fun r => !(duplicateKey r == key)) other = group files other := by
  simp only [group, List.filter_filter]
  apply List.filter_congr
  intro r _
  by_cases hr : duplicateKey r = other
  · simp [hr, h]
  · simp [hr]

/-- The groups of distinct keys are disjoint parts of the collection. -/
theorem flatMap_group_subperm {keys : List (Nat × String)} (hkeys : keys.Nodup)
    (files : List Record) : (keys.flatMap (group files)).Subperm files := by
  induction keys generalizing files with
  | nil => exact List.nil_subperm
  | cons key rest ih =>
      rw [List.nodup_cons] at hkeys
      -- the other groups lie in what is left when the first one is taken out
      let others := files.filter fun r => !(duplicateKey r == key)
      have hrest : rest.flatMap (group files) = rest.flatMap (group others) := by
        apply List.flatMap_congr
        intro other hother
        have hne : other ≠ key := fun heq => hkeys.1 (heq ▸ hother)
        exact (group_filter_ne files hne).symm
      have hsub : (group files key ++ rest.flatMap (group others)).Subperm
          (group files key ++ others) :=
        (List.subperm_append_left _).2 (ih hkeys.2 others)
      have hperm : (group files key ++ others).Perm files :=
        List.filter_append_perm (fun r => duplicateKey r == key) files
      rw [List.flatMap_cons, hrest]
      exact hsub.trans hperm.subperm

/-- No record occurs more often in `duplicates files` than in `files`. -/
theorem duplicates_subperm (files : List Record) : (duplicates files).Subperm files := by
  rw [duplicates_eq_flatMap]
  exact flatMap_group_subperm (sharedKeys_nodup files) files

/-! ## Duplicates of the duplicates -/

/-- Among the groups of distinct keys, the group of each key is the one it was. -/
theorem group_flatMap_group {keys : List (Nat × String)} (hkeys : keys.Nodup)
    (files : List Record) {key : Nat × String} (h : key ∈ keys) :
    group (keys.flatMap (group files)) key = group files key := by
  induction keys with
  | nil => cases h
  | cons first rest ih =>
      rw [List.nodup_cons] at hkeys
      have hother : ∀ k ∈ rest, ∀ r ∈ group files k, duplicateKey r ≠ first := by
        intro k hk r hr heq
        have hkey := (mem_group.1 hr).2
        exact hkeys.1 (heq ▸ hkey ▸ hk)
      simp only [List.flatMap_cons, group, List.filter_append]
      rcases List.mem_cons.1 h with rfl | hrest
      · -- nothing behind the first group has its key
        have hnil : (rest.flatMap (group files)).filter (fun r => duplicateKey r == key) = [] := by
          rw [List.filter_eq_nil_iff]
          intro r hr
          obtain ⟨k, hk, hrk⟩ := List.mem_flatMap.1 hr
          simpa using hother k hk r hrk
        have hself : (files.filter fun r => duplicateKey r == key).filter
            (fun r => duplicateKey r == key) = files.filter fun r => duplicateKey r == key :=
          List.filter_eq_self.2 fun r hr => (List.mem_filter.1 hr).2
        rw [hself]
        exact (congrArg _ hnil).trans (List.append_nil _)
      · -- the first group has another key
        have hne : key ≠ first := fun heq => hkeys.1 (heq ▸ hrest)
        have hnil : (files.filter fun r => duplicateKey r == first).filter
            (fun r => duplicateKey r == key) = [] := by
          rw [List.filter_eq_nil_iff]
          intro r hr
          have hr' : duplicateKey r = first := by simpa using (List.mem_filter.1 hr).2
          simpa [hr'] using fun heq => hne heq.symm
        rw [hnil, List.nil_append]
        exact ih hkeys.2 hrest

/-- Non-empty groups of distinct `keys`, one behind another, show `keys` in order. -/
theorem duplicateKeys_flatMap_group {keys : List (Nat × String)} (hkeys : keys.Nodup)
    {files : List Record} (hne : ∀ key ∈ keys, group files key ≠ []) :
    duplicateKeys (keys.flatMap (group files)) = keys := by
  induction keys with
  | nil => rfl
  | cons key rest ih =>
      rw [List.nodup_cons] at hkeys
      obtain ⟨first, more, hgroup⟩ := List.exists_cons_of_ne_nil (hne key List.mem_cons_self)
      have hkey : ∀ r ∈ first :: more, duplicateKey r = key := by
        intro r hr
        exact (mem_group.1 (hgroup ▸ hr)).2
      -- behind its first record the group shows nothing new, and no later group has its key
      have hmore : (more.map duplicateKey).filter (fun k => !k == key) = [] := by
        rw [List.filter_eq_nil_iff]
        intro k hk
        obtain ⟨r, hr, rfl⟩ := List.mem_map.1 hk
        simp [hkey r (List.mem_cons_of_mem _ hr)]
      have hrest : ((rest.flatMap (group files)).map duplicateKey).filter (fun k => !k == key)
          = (rest.flatMap (group files)).map duplicateKey := by
        rw [List.filter_eq_self]
        intro k hk
        obtain ⟨r, hr, rfl⟩ := List.mem_map.1 hk
        obtain ⟨other, hother, hrother⟩ := List.mem_flatMap.1 hr
        have hk' := (mem_group.1 hrother).2
        simpa [hk'] using fun heq : other = key => hkeys.1 (heq ▸ hother)
      have ih' := ih hkeys.2 fun k hk => hne k (List.mem_cons_of_mem _ hk)
      unfold duplicateKeys at ih' ⊢
      rw [List.flatMap_cons, hgroup, List.cons_append, List.map_cons, List.map_append,
        hkey first List.mem_cons_self, List.eraseDups_cons, List.filter_append, hmore, hrest,
        List.nil_append, ih']

/-- The function `duplicates` leaves `sharedKeys` as they were. -/
theorem sharedKeys_duplicates (files : List Record) :
    sharedKeys (duplicates files) = sharedKeys files := by
  have hnodup := sharedKeys_nodup files
  -- the duplicates have no other keys, and each of those is shared as it was
  have hkeys : duplicateKeys (duplicates files) = sharedKeys files := by
    rw [duplicates_eq_flatMap]
    exact duplicateKeys_flatMap_group hnodup fun key hkey => group_ne_nil hkey
  rw [sharedKeys, hkeys, List.filter_eq_self]
  intro key hkey
  have hgroup : group (duplicates files) key = group files key := by
    rw [duplicates_eq_flatMap]
    exact group_flatMap_group hnodup files hkey
  rw [hgroup]
  exact (List.mem_filter.1 hkey).2

/-- The function `duplicates` is idempotent, the order of the records included. -/
theorem duplicates_duplicates (files : List Record) :
    duplicates (duplicates files) = duplicates files := by
  rw [duplicates_eq_flatMap (duplicates files), sharedKeys_duplicates]
  conv_rhs => rw [duplicates_eq_flatMap]
  apply List.flatMap_congr
  intro key hkey
  rw [duplicates_eq_flatMap]
  exact group_flatMap_group (sharedKeys_nodup files) files hkey

end FileClerk.Collection
