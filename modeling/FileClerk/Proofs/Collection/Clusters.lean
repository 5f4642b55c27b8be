import Mathlib.Data.Finset.Card
import Mathlib.Data.List.FinRange
import Mathlib.Data.List.Pairwise
import Mathlib.Data.List.Sort
import FileClerk.Proofs.Catalogue
import FileClerk.Proofs.Collection.Duplicates

/-!
# The places of duplicates

A collection may hold the same record more than once, so what a cluster holds is said of places and
not of records. `ClusterPlaces` says which places belong together: those whose records agree in size
and extension, where there are at least two of them. Within a cluster the places rise, and clusters
follow each other by their first places. There is one list of clusters of places only
(`ClusterPlaces.unique`), and the clusters of a collection are the records at these places
(`clusters_atPlaces`).

A collection in another order has the same clusters up to the order of clusters and of their records
(`grouping_perm`).
-/

set_option autoImplicit false

namespace FileClerk.Collection

/-- The records `a` and `b` agree in size and extension. -/
def Alike (a b : Record) : Prop := a.size = b.size ∧ a.extension = b.extension

/-- On built records `duplicateKey` tells apart what `Alike` does. -/
theorem duplicateKey_eq_iff {a b : Record} (ha : a.Built) (hb : b.Built) :
    duplicateKey a = duplicateKey b ↔ Alike a b := by
  rw [duplicateKey, duplicateKey, Prod.mk.injEq, ha.lowered_extension, hb.lowered_extension, Alike]

/-! ## Clusters of places -/

/-- The lists hold the places `i` of a collection for which some `j ≠ i` has `Alike files[i]
files[j]`, each once, and places of records that agree lie in one list. The places of a list rise,
and the lists stand in the order of their first places. -/
structure ClusterPlaces (files : List Record) (places : List (List (Fin files.length))) :
    Prop where
  inside : ∀ i, (∃ cluster ∈ places, i ∈ cluster) ↔ ∃ j, j ≠ i ∧ Alike files[i] files[j]
  once : places.flatten.Nodup
  together : ∀ i j, i ≠ j →
    ((∃ cluster ∈ places, i ∈ cluster ∧ j ∈ cluster) ↔ Alike files[i] files[j])
  rising : ∀ cluster ∈ places, cluster.Pairwise (· < ·)
  inTurn : places.Pairwise fun cluster later =>
    ∃ i ∈ cluster.head?, ∃ j ∈ later.head?, i < j
  inhabited : ∀ cluster ∈ places, cluster ≠ []

/-- The records at places of a collection. -/
def atPlaces (files : List Record) (places : List (Fin files.length)) : List Record :=
  places.map files.get

/-- The places `i` with `duplicateKey files[i] = key`. -/
def placesOf (files : List Record) (key : Nat × String) : List (Fin files.length) :=
  (List.finRange files.length).filter fun i => duplicateKey files[i] == key

section Places

variable {files : List Record} {key : Nat × String}

theorem mem_placesOf {i : Fin files.length} :
    i ∈ placesOf files key ↔ duplicateKey files[i] = key := by
  simp [placesOf]

theorem placesOf_pairwise (files : List Record) (key : Nat × String) :
    (placesOf files key).Pairwise (· < ·) :=
  (List.pairwise_lt_finRange files.length).filter _

theorem group_eq_atPlaces (files : List Record) (key : Nat × String) :
    group files key = atPlaces files (placesOf files key) := by
  conv_lhs => rw [group, ← files.map_get_finRange, List.filter_map]
  rfl

/-- A key is in `sharedKeys` if it is found at two places. -/
theorem mem_sharedKeys_iff :
    key ∈ sharedKeys files ↔ ∃ i j, i ≠ j ∧ i ∈ placesOf files key ∧ j ∈ placesOf files key := by
  have hlength : (group files key).length = (placesOf files key).toFinset.card := by
    rw [group_eq_atPlaces, atPlaces, List.length_map, List.toFinset_card_of_nodup]
    exact (placesOf_pairwise files key).imp ne_of_lt
  rw [sharedKeys, List.mem_filter, decide_eq_true_eq, hlength, gt_iff_lt, Finset.one_lt_card]
  simp only [List.mem_toFinset]
  constructor
  · rintro ⟨-, i, hi, j, hj, hne⟩
    exact ⟨i, j, hne, hi, hj⟩
  · rintro ⟨i, j, hne, hi, hj⟩
    refine ⟨?_, i, hi, j, hj, hne⟩
    rw [duplicateKeys, List.mem_eraseDups, List.mem_map]
    exact ⟨files[i], List.getElem_mem _, mem_placesOf.1 hi⟩

/-- The key of a place is shared if it is found at another place. -/
theorem duplicateKey_mem_sharedKeys_iff (i : Fin files.length) :
    duplicateKey files[i] ∈ sharedKeys files ↔
      ∃ j, j ≠ i ∧ duplicateKey files[i] = duplicateKey files[j] := by
  simp only [mem_sharedKeys_iff, mem_placesOf]
  constructor
  · rintro ⟨j, j', hne, hj, hj'⟩
    by_cases hij : j = i
    · exact ⟨j', hij ▸ hne.symm, hj'.symm⟩
    · exact ⟨j, hij, hj.symm⟩
  · rintro ⟨j, hne, hkey⟩
    exact ⟨j, i, hne, hkey.symm, rfl⟩

end Places

/-- The `placesOf` each of the `sharedKeys`. -/
def clusterPlaces (files : List Record) : List (List (Fin files.length)) :=
  (sharedKeys files).map (placesOf files)

/-- The clusters of a collection are the records at the places of its clusters. -/
theorem clusters_eq_atPlaces (files : List Record) :
    clusters files = (clusterPlaces files).map (atPlaces files) := by
  rw [clusters_eq_map, clusterPlaces, List.map_map]
  exact List.map_congr_left fun key _ => group_eq_atPlaces files key

/-! ## The order of the clusters -/

/-- The function `eraseDups` leaves the keys in the order of their first places. -/
theorem eraseDups_pairwise_idxOf (keys : List (Nat × String)) :
    keys.eraseDups.Pairwise fun key later => keys.idxOf key < keys.idxOf later := by
  induction keys using List.reverseRecOn with
  | nil => exact List.Pairwise.nil
  | append_singleton front last ih =>
      have hfront : front.eraseDups.Pairwise fun key later =>
          (front ++ [last]).idxOf key < (front ++ [last]).idxOf later := by
        refine ih.imp_of_mem fun hkey hlater hlt => ?_
        rwa [List.idxOf_append_of_mem (List.mem_eraseDups.1 hkey),
          List.idxOf_append_of_mem (List.mem_eraseDups.1 hlater)]
      rw [List.eraseDups_append]
      by_cases hlast : last ∈ front
      · -- a key that was there before is not listed again
        have hnone : [last].removeAll front = [] := by simp [List.removeAll, hlast]
        rwa [hnone, List.eraseDups_nil, List.append_nil]
      · have hone : ([last].removeAll front).eraseDups = [last] := by
          simp [List.removeAll, hlast, List.eraseDups_cons]
        rw [hone, List.pairwise_append]
        refine ⟨hfront, List.pairwise_singleton _ _, fun key hkey later hlater => ?_⟩
        have hmem := List.mem_eraseDups.1 hkey
        rw [List.mem_singleton.1 hlater, List.idxOf_append_of_mem hmem,
          List.idxOf_append_of_notMem hlast]
        exact Nat.lt_of_lt_of_le (List.idxOf_lt_length_iff.2 hmem) (Nat.le_add_right _ _)

section Heads

variable {files : List Record} {key : Nat × String}

/-- A shared key has a first place. -/
theorem exists_head?_placesOf (h : key ∈ sharedKeys files) :
    ∃ i, (placesOf files key).head? = some i := by
  obtain ⟨i, j, -, hi, -⟩ := mem_sharedKeys_iff.1 h
  exact ⟨_, List.head?_eq_some_head (List.ne_nil_of_mem hi)⟩

/-- The first place of a key stands before its other ones. -/
theorem le_of_head?_placesOf {i j : Fin files.length} (h : (placesOf files key).head? = some i)
    (hj : j ∈ placesOf files key) : i ≤ j := by
  obtain ⟨rest, hplaces⟩ := List.head?_eq_some_iff.1 h
  have hrising := placesOf_pairwise files key
  rw [hplaces] at hj hrising
  rcases List.mem_cons.1 hj with rfl | hrest
  · exact le_refl j
  · exact le_of_lt ((List.pairwise_cons.1 hrising).1 j hrest)

theorem idxOf_of_head?_placesOf {i : Fin files.length}
    (h : (placesOf files key).head? = some i) : (files.map duplicateKey).idxOf key = i := by
  have hlt : (i : Nat) < (files.map duplicateKey).length := by
    rw [List.length_map]
    exact i.isLt
  rw [List.idxOf, List.findIdx_eq hlt]
  constructor
  · have hkey := mem_placesOf.1 (List.mem_of_mem_head? h)
    simpa using hkey
  · intro j hj
    rw [beq_eq_false_iff_ne]
    intro hkey
    -- a place of the key before the first one
    have hplace : (⟨j, Nat.lt_trans hj i.isLt⟩ : Fin files.length) ∈ placesOf files key := by
      rw [mem_placesOf, ← hkey]
      simp
    exact absurd (le_of_head?_placesOf h hplace) (not_le_of_gt hj)

end Heads

/-! ## One list of clusters -/

namespace ClusterPlaces

variable {files : List Record} {places places' : List (List (Fin files.length))}

/-- Lists that share a place are one. -/
theorem eq_of_mem (h : ClusterPlaces files places) {cluster cluster' : List (Fin files.length)}
    (hcluster : cluster ∈ places) (hcluster' : cluster' ∈ places) {i : Fin files.length}
    (hi : i ∈ cluster) (hi' : i ∈ cluster') : cluster = cluster' := by
  have hdisjoint := (List.nodup_flatten.1 h.once).2
  have hsymm : Std.Symm (List.Disjoint (α := Fin files.length)) := ⟨fun _ _ hapart => hapart.symm⟩
  by_contra hne
  exact hdisjoint.forall hcluster hcluster' hne hi hi'

/-- A list holds all places of records that agree. -/
theorem mem_iff_alike (h : ClusterPlaces files places) {cluster : List (Fin files.length)}
    (hcluster : cluster ∈ places) {i : Fin files.length} (hi : i ∈ cluster)
    (j : Fin files.length) : j ∈ cluster ↔ Alike files[i] files[j] := by
  by_cases hne : i = j
  · obtain rfl := hne
    exact iff_of_true hi ⟨rfl, rfl⟩
  · rw [← h.together i j hne]
    constructor
    · exact fun hj => ⟨cluster, hcluster, hi, hj⟩
    · rintro ⟨cluster', hcluster', hi', hj'⟩
      exact h.eq_of_mem hcluster hcluster' hi hi' ▸ hj'

theorem mem_of_mem (h : ClusterPlaces files places) (h' : ClusterPlaces files places')
    {cluster : List (Fin files.length)} (hcluster : cluster ∈ places) : cluster ∈ places' := by
  obtain ⟨i, hi⟩ := List.exists_mem_of_ne_nil cluster (h.inhabited cluster hcluster)
  obtain ⟨cluster', hcluster', hi'⟩ := (h'.inside i).2 ((h.inside i).1 ⟨cluster, hcluster, hi⟩)
  -- both lists hold the places that go with this one, and they rise
  have hsame : ∀ j, j ∈ cluster ↔ j ∈ cluster' := fun j =>
    (h.mem_iff_alike hcluster hi j).trans (h'.mem_iff_alike hcluster' hi' j).symm
  have heq : cluster = cluster' :=
    (h.rising cluster hcluster).eq_of_mem_iff (h'.rising cluster' hcluster') hsame
  exact heq ▸ hcluster'

theorem not_inTurn_symm {cluster later : List (Fin files.length)}
    (h : ∃ i ∈ cluster.head?, ∃ j ∈ later.head?, i < j) :
    ¬ ∃ j ∈ later.head?, ∃ i ∈ cluster.head?, j < i := by
  obtain ⟨i, hi, j, hj, hlt⟩ := h
  rintro ⟨j', hj', i', hi', hlt'⟩
  obtain rfl : i = i' := Option.mem_unique hi hi'
  obtain rfl : j = j' := Option.mem_unique hj hj'
  exact lt_asymm hlt hlt'

theorem nodup (h : ClusterPlaces files places) : places.Nodup := by
  refine h.inTurn.imp fun hturn heq => ?_
  rw [heq] at hturn
  exact not_inTurn_symm hturn hturn

/-- The predicate `ClusterPlaces files` holds of one list at most. -/
theorem unique (h : ClusterPlaces files places) (h' : ClusterPlaces files places') :
    places = places' := by
  have hperm : places.Perm places' := (List.perm_ext_iff_of_nodup h.nodup h'.nodup).2 fun cluster =>
    ⟨h.mem_of_mem h', h'.mem_of_mem h⟩
  exact hperm.eq_of_pairwise (fun _ _ _ _ hturn hturn' => absurd hturn' (not_inTurn_symm hturn))
    h.inTurn h'.inTurn

end ClusterPlaces

section Clusters

variable {files : List Record}

/-- The cluster of a place holds the records of its key, if the key is shared. -/
theorem exists_cluster_iff (i : Fin files.length) (p : List (Fin files.length) → Prop) :
    (∃ cluster ∈ clusterPlaces files, i ∈ cluster ∧ p cluster) ↔
      duplicateKey files[i] ∈ sharedKeys files ∧ p (placesOf files (duplicateKey files[i])) := by
  constructor
  · rintro ⟨cluster, hcluster, hi, hp⟩
    obtain ⟨key, hkey, rfl⟩ := List.mem_map.1 hcluster
    obtain rfl := mem_placesOf.1 hi
    exact ⟨hkey, hp⟩
  · rintro ⟨hkey, hp⟩
    exact ⟨_, List.mem_map_of_mem hkey, mem_placesOf.2 rfl, hp⟩

/-- Places have one key if their records agree. -/
theorem duplicateKey_getElem_iff (hfiles : ∀ r ∈ files, r.Built) (i j : Fin files.length) :
    duplicateKey files[i] = duplicateKey files[j] ↔ Alike files[i] files[j] :=
  duplicateKey_eq_iff (hfiles _ (List.getElem_mem i.isLt)) (hfiles _ (List.getElem_mem j.isLt))

/-- The places `clusterPlaces` are the clusters of built records. -/
theorem clusterPlaces_isClusters (hfiles : ∀ r ∈ files, r.Built) :
    ClusterPlaces files (clusterPlaces files) where
  inside := by
    intro i
    have hinside := exists_cluster_iff i fun _ => True
    simp only [and_true] at hinside
    rw [hinside, duplicateKey_mem_sharedKeys_iff]
    exact exists_congr fun j => and_congr_right fun _ => duplicateKey_getElem_iff hfiles i j
  once := by
    rw [clusterPlaces, ← List.flatMap_def, List.nodup_flatMap]
    refine ⟨fun key _ => (placesOf_pairwise files key).imp ne_of_lt, ?_⟩
    refine (sharedKeys_nodup files).imp fun hne i hi hi' => hne ?_
    exact (mem_placesOf.1 hi).symm.trans (mem_placesOf.1 hi')
  together := by
    intro i j hne
    rw [exists_cluster_iff i fun cluster => j ∈ cluster, mem_placesOf,
      duplicateKey_mem_sharedKeys_iff, ← duplicateKey_getElem_iff hfiles,
      eq_comm (a := duplicateKey files[j])]
    exact and_iff_right_of_imp fun hkey => ⟨j, hne.symm, hkey⟩
  rising := by
    intro cluster hcluster
    obtain ⟨key, -, rfl⟩ := List.mem_map.1 hcluster
    exact placesOf_pairwise files key
  inTurn := by
    rw [clusterPlaces, List.pairwise_map]
    refine ((eraseDups_pairwise_idxOf _).filter _).imp_of_mem fun hkey hlater hlt => ?_
    obtain ⟨i, hi⟩ := exists_head?_placesOf hkey
    obtain ⟨j, hj⟩ := exists_head?_placesOf hlater
    -- the first place of a key is where the key is first found
    rw [idxOf_of_head?_placesOf hi, idxOf_of_head?_placesOf hj] at hlt
    exact ⟨i, hi, j, hj, hlt⟩
  inhabited := by
    intro cluster hcluster hnil
    obtain ⟨key, hkey, rfl⟩ := List.mem_map.1 hcluster
    obtain ⟨i, hi⟩ := exists_head?_placesOf hkey
    rw [hnil] at hi
    cases hi

/-! ## Collections in another order -/

/-- The clusters of a collection without their order, and without the order of their records. -/
def grouping (files : List Record) : Multiset (Multiset Record) :=
  Multiset.ofList ((clusters files).map Multiset.ofList)

theorem sharedKeys_perm {files' : List Record} (h : files.Perm files') :
    (sharedKeys files).Perm (sharedKeys files') := by
  refine (List.perm_ext_iff_of_nodup (sharedKeys_nodup files) (sharedKeys_nodup files')).2 ?_
  intro key
  have hlength : (group files key).length = (group files' key).length := (h.filter _).length_eq
  have hkeys : key ∈ duplicateKeys files ↔ key ∈ duplicateKeys files' := by
    rw [duplicateKeys, duplicateKeys, List.mem_eraseDups, List.mem_eraseDups]
    exact (h.map duplicateKey).mem_iff
  rw [sharedKeys, sharedKeys, List.mem_filter, List.mem_filter, hkeys, hlength]

/-- Another order of the collection changes the order of clusters and of their records only. -/
theorem grouping_perm {files' : List Record} (h : files.Perm files') :
    grouping files = grouping files' := by
  have hgroups : (sharedKeys files).map (fun key => (group files key : Multiset Record)) =
      (sharedKeys files).map fun key => (group files' key : Multiset Record) :=
    List.map_congr_left fun key _ => Multiset.coe_eq_coe.2 (h.filter _)
  rw [grouping, grouping, clusters_eq_map, clusters_eq_map, List.map_map, List.map_map]
  exact (congrArg Multiset.ofList hgroups).trans
    (Multiset.coe_eq_coe.2 ((sharedKeys_perm h).map _))

/-! ## Clusters -/

/-- The one list `places` with `ClusterPlaces files places` gives the `clusters` of a collection of
built records, in their order. The `duplicates` are the records of the clusters, they are their own
duplicates, and the records that are grouped together do not depend on the order of the collection.
-/
theorem clusters_atPlaces (hfiles : ∀ r ∈ files, r.Built) :
    ∃ places, (∀ p, ClusterPlaces files p ↔ p = places) ∧
      clusters files = places.map (atPlaces files) ∧
      duplicates files = (clusters files).flatten ∧
      duplicates files = atPlaces files places.flatten ∧
      duplicates (duplicates files) = duplicates files ∧
      ∀ files', files.Perm files' → grouping files = grouping files' := by
  have hplaces := clusterPlaces_isClusters hfiles
  have hclusters := clusters_eq_atPlaces files
  refine ⟨clusterPlaces files, fun p => ⟨fun hp => hp.unique hplaces, fun hp => hp ▸ hplaces⟩,
    hclusters, rfl, ?_, duplicates_duplicates files, fun files' hperm => grouping_perm hperm⟩
  rw [duplicates, hclusters, atPlaces, List.map_flatten]
  rfl

end Clusters

/-- Two groups that take turns, one of them with a record that is there twice. -/
def interleaved : List Record :=
  [⟨"1", "a.jpg", "jpg", 5, ⟨0, none⟩, ""⟩, ⟨"2", "b.txt", "txt", 7, ⟨0, none⟩, ""⟩,
    ⟨"3", "c.png", "png", 5, ⟨0, none⟩, ""⟩, ⟨"1", "a.jpg", "jpg", 5, ⟨0, none⟩, ""⟩,
    ⟨"4", "d.txt", "txt", 7, ⟨0, none⟩, ""⟩]

theorem clusters_atPlaces_interleaved :
    ∃ places, (∀ p, ClusterPlaces interleaved p ↔ p = places) ∧
      clusters interleaved = places.map (atPlaces interleaved) ∧
      duplicates interleaved = (clusters interleaved).flatten ∧
      duplicates interleaved = atPlaces interleaved places.flatten ∧
      duplicates (duplicates interleaved) = duplicates interleaved ∧
      ∀ files', interleaved.Perm files' → grouping interleaved = grouping files' :=
  clusters_atPlaces (by decide +kernel)

end FileClerk.Collection
