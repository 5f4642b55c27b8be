import Mathlib.Data.List.Nodup
import FileClerk.Scan.Tree

/-!
# What a directory lists

What stands in a directory, or below it behind real directories, is `Tree.Holds`. `Tree.Lists` is
the part of it that a listing has: each directory on the way gives its names, and those that deny it
are passed over. A listing is refused by a directory that it comes to and that cannot be listed for
another reason, or lies too deep (`Tree.Refuses`). `entries_cases` says that `Tree.entries` gives
what `Tree.Lists` describes, each entry once, exactly if nothing refuses the listing.
-/

set_option autoImplicit false

namespace FileClerk.Scan.Tree

/-! ## Listings of directories -/

/-- The tree has something at `place ++ names`: in the directory itself or, if `deep`, below it
behind real directories. Whether these give their names does not matter. -/
inductive Holds (tree : Tree) (deep : Bool) : List String → List String → Prop where
  | child (place : List String) (name : String) :
      tree.node? (place ++ [name]) ≠ none → Holds tree deep place [name]
  | deeper (place : List String) (name : String) (names : List String) :
      deep = true → tree.node? (place ++ [name]) = some .directory →
      Holds tree deep (place ++ [name]) names → Holds tree deep place (name :: names)

/-- The directory at `directory` and `place` lists the names: the name of something that stands in
it or, if `deep`, the name of a real directory in it followed by names that this directory lists.
Each directory gives its names: it has no `listFault?`. -/
inductive Lists (tree : Tree) (deep : Bool) : Path → List String → List String → Prop where
  | child (directory : Path) (place : List String) (name : String) :
      tree.listFault? directory = none → tree.node? (place ++ [name]) ≠ none →
      Lists tree deep directory place [name]
  | deeper (directory : Path) (place : List String) (name : String) (names : List String) :
      deep = true → tree.listFault? directory = none →
      tree.node? (place ++ [name]) = some .directory →
      Lists tree deep (directory.child name) (place ++ [name]) names →
      Lists tree deep directory place (name :: names)

/-- The listing comes to the directory that the names lead to: it is the one that is listed, or one
that a deep listing `Lists`. -/
inductive Visits (tree : Tree) (deep : Bool) (directory : Path) (place : List String) :
    List String → Prop where
  | self : Visits tree deep directory place []
  | below (names : List String) : deep = true → tree.Lists true directory place names →
      tree.node? (place ++ names) = some .directory → Visits tree deep directory place names

/-- The listing is refused. A flat listing is refused by a directory with a `listFault?`. A deep one
passes over those that deny it, and is refused by one with another fault or with more than `levels`
names. -/
inductive Refuses (tree : Tree) (levels : Nat) (directory : Path) (place : List String) :
    Bool → Prop where
  | flat (fault : AccessFault) : tree.listFault? directory = some fault →
      Refuses tree levels directory place false
  | unlisted (names : List String) (fault : AccessFault) :
      tree.Visits true directory place names →
      tree.listFault? (directory.extend names) = some fault → fault ≠ .denied →
      Refuses tree levels directory place true
  | tooDeep (names : List String) : tree.Visits true directory place names →
      levels < names.length → Refuses tree levels directory place true

section Places

variable {tree : Tree} {place names : List String}

/-- What stands at a place is listed under the place. -/
theorem node?_ne_none_iff (h : place ≠ []) :
    tree.node? place ≠ none ↔ ∃ node, (place, node) ∈ tree.nodes := by
  have hempty : place.isEmpty = false := by
    rwa [List.isEmpty_eq_false_iff]
  rw [node?, hempty, if_neg Bool.false_ne_true, Ne, List.lookup_eq_none_iff]
  simp only [Classical.not_forall, bne_iff_ne, ne_eq, Classical.not_not, Prod.exists]
  constructor
  · rintro ⟨p, node, hmem, rfl⟩
    exact ⟨node, hmem⟩
  · rintro ⟨node, hmem⟩
    exact ⟨place, node, hmem, rfl⟩

theorem below?_eq_some_iff {directory : List String} :
    below? directory place = some names ↔ place = directory ++ names ∧ names ≠ [] := by
  unfold below?
  constructor
  · intro h
    split at h
    · rename_i hcond
      rw [Bool.and_eq_true, List.isPrefixOf_iff_prefix, decide_eq_true_eq] at hcond
      obtain ⟨⟨rest, rfl⟩, hlen⟩ := hcond
      rw [List.drop_left, Option.some.injEq] at h
      subst h
      refine ⟨rfl, ?_⟩
      rintro rfl
      simp at hlen
    · cases h
  · rintro ⟨rfl, hne⟩
    have hpos : 0 < names.length := List.length_pos_iff.2 hne
    rw [if_pos]
    · rw [List.drop_left]
    · rw [Bool.and_eq_true, List.isPrefixOf_iff_prefix, decide_eq_true_eq, List.length_append]
      exact ⟨List.prefix_append _ _, by omega⟩

/-- The names below a place are those under which something stands. -/
theorem mem_namesBelow_iff :
    names ∈ tree.namesBelow place ↔ names ≠ [] ∧ tree.node? (place ++ names) ≠ none := by
  rw [namesBelow, List.mem_filterMap]
  constructor
  · rintro ⟨⟨p, node⟩, hmem, hbelow⟩
    obtain ⟨rfl, hne⟩ := below?_eq_some_iff.1 hbelow
    exact ⟨hne, (node?_ne_none_iff (by simp [hne])).2 ⟨node, hmem⟩⟩
  · rintro ⟨hne, hnode⟩
    obtain ⟨node, hmem⟩ := (node?_ne_none_iff (by simp [hne])).1 hnode
    exact ⟨_, hmem, below?_eq_some_iff.2 ⟨rfl, hne⟩⟩

/-- No names come up twice below a place. -/
theorem nodup_namesBelow (tree : Tree) (place : List String) : (tree.namesBelow place).Nodup := by
  have hplaces : tree.namesBelow place = (tree.nodes.map Prod.fst).filterMap (below? place) := by
    rw [List.filterMap_map]
    rfl
  rw [hplaces]
  refine List.Nodup.filterMap ?_ tree.distinct
  intro p q names hp hq
  rw [(below?_eq_some_iff.1 hp).1, (below?_eq_some_iff.1 hq).1]

end Places

section Entries

variable {tree : Tree} {deep : Bool} {levels : Nat} {directory : Path} {place names : List String}

theorem Lists.ne_nil (h : tree.Lists deep directory place names) : names ≠ [] := by
  cases h with
  | child _ _ name _ _ => exact List.cons_ne_nil name []
  | deeper _ _ name names _ _ _ _ => exact List.cons_ne_nil name names

/-- What the tree `Holds` is what it `Lists`, so far as all directories on the way give their names.
-/
theorem lists_iff_holds :
    tree.Lists deep directory place names ↔ tree.Holds deep place names ∧
      ∀ front, front <+: names → front ≠ names →
        tree.listFault? (directory.extend front) = none := by
  constructor
  · -- a front of `name :: names` is empty, or it goes on with a front of `names`
    intro h
    induction h with
    | child directory place name hgives hnode =>
        refine ⟨.child place name hnode, fun front hfront hne => ?_⟩
        rcases List.prefix_cons_iff.1 hfront with rfl | ⟨rest, rfl, hrest⟩
        · rwa [Path.extend_nil]
        · exact absurd (List.prefix_nil.1 hrest ▸ rfl) hne
    | deeper directory place name names hdeep hgives hdirectory _ ih =>
        refine ⟨.deeper place name names hdeep hdirectory ih.1, fun front hfront hne => ?_⟩
        rcases List.prefix_cons_iff.1 hfront with rfl | ⟨rest, rfl, hrest⟩
        · rwa [Path.extend_nil]
        · rw [Path.extend_cons]
          exact ih.2 rest hrest fun hsame => hne (hsame ▸ rfl)
  · rintro ⟨h, hgives⟩
    induction h generalizing directory with
    | child place name hnode =>
        have hself := hgives [] List.nil_prefix (List.cons_ne_nil name []).symm
        exact .child directory place name (directory.extend_nil ▸ hself) hnode
    | deeper place name names hdeep hdirectory _ ih =>
        have hself := hgives [] List.nil_prefix (List.cons_ne_nil name names).symm
        refine .deeper directory place name names hdeep (directory.extend_nil ▸ hself) hdirectory
          (ih fun front hfront hne => ?_)
        rw [← Path.extend_cons]
        exact hgives (name :: front) (List.cons_prefix_cons.2 ⟨rfl, hfront⟩) fun hsame =>
          hne (List.cons.inj hsame).2

theorem Lists.holds (h : tree.Lists deep directory place names) : tree.Holds deep place names :=
  (lists_iff_holds.1 h).1

/-- What stands below a place is among the places of the tree. -/
theorem Holds.mem_namesBelow (h : tree.Holds deep place names) :
    names ∈ tree.namesBelow place := by
  rw [mem_namesBelow_iff]
  induction h with
  | child place name hnode => exact ⟨List.cons_ne_nil name [], hnode⟩
  | deeper place name names _ _ _ ih =>
      refine ⟨List.cons_ne_nil name names, ?_⟩
      rw [List.append_cons]
      exact ih.2

/-- A deep listing has what `Tree.reaches`. -/
theorem lists_deep_iff :
    tree.Lists true directory place names ↔
      names ≠ [] ∧ tree.node? (place ++ names) ≠ none ∧
        tree.reaches directory place names = true := by
  constructor
  · -- by the way that leads to the entry: each directory on it is a real one
    intro h
    refine ⟨h.ne_nil, ?_⟩
    induction h with
    | child directory place name hgives hnode =>
        refine ⟨hnode, ?_⟩
        rw [reaches, hgives]
        rfl
    | deeper directory place name names _ hgives hdirectory hrest ih =>
        obtain ⟨first, rest, rfl⟩ := List.exists_cons_of_ne_nil hrest.ne_nil
        rw [List.append_assoc, List.singleton_append] at ih
        refine ⟨ih.1, ?_⟩
        rw [reaches, hgives, hdirectory, ih.2]
        · rfl
        · exact List.cons_ne_nil first rest
  · -- the directories that `Tree.reaches` tests are the ones on the way
    rintro ⟨hne, hnode, hreaches⟩
    induction names generalizing directory place with
    | nil => exact absurd rfl hne
    | cons name rest ih =>
        cases rest with
        | nil =>
            rw [reaches, Option.isNone_iff_eq_none] at hreaches
            exact .child directory place name hreaches hnode
        | cons first rest =>
            rw [reaches, Bool.and_eq_true, Bool.and_eq_true, beq_iff_eq,
              Option.isNone_iff_eq_none] at hreaches
            · refine .deeper directory place name _ rfl hreaches.1.1 hreaches.1.2
                (ih (List.cons_ne_nil first rest) ?_ hreaches.2)
              rwa [List.append_assoc, List.singleton_append]
            · exact List.cons_ne_nil first rest

/-- A flat listing is the part of a deep one with `names.length = 1`. -/
theorem lists_flat_iff_deep :
    tree.Lists false directory place names ↔
      tree.Lists true directory place names ∧ names.length = 1 := by
  constructor
  · intro h
    cases h with
    | child _ _ name hgives hnode => exact ⟨.child directory place name hgives hnode, rfl⟩
    | deeper _ _ _ _ hdeep _ _ _ => cases hdeep
  · rintro ⟨h, hlen⟩
    cases h with
    | child _ _ name hgives hnode => exact .child directory place name hgives hnode
    | deeper _ _ name names _ _ _ hrest =>
        obtain rfl : names = [] := by simpa using hlen
        exact absurd rfl hrest.ne_nil

theorem mem_deepEntries_iff :
    names ∈ tree.deepEntries directory place ↔ tree.Lists true directory place names := by
  rw [deepEntries, List.mem_filter, mem_namesBelow_iff, lists_deep_iff, and_assoc]

theorem nodup_deepEntries (tree : Tree) (directory : Path) (place : List String) :
    (tree.deepEntries directory place).Nodup :=
  (nodup_namesBelow tree place).filter _

/-- The directories that `Tree.entries` tests are those that the listing `Visits`. -/
theorem mem_visited_iff :
    names ∈ tree.visited directory place ↔ tree.Visits true directory place names := by
  rw [visited, List.mem_cons, List.mem_filter, mem_deepEntries_iff, beq_iff_eq]
  constructor
  · rintro (rfl | ⟨hlisted, hnode⟩)
    · exact .self
    · exact .below names rfl hlisted hnode
  · intro h
    cases h with
    | self => exact Or.inl rfl
    | below _ _ hlisted hnode => exact Or.inr ⟨hlisted, hnode⟩

/-! ## Refused listings -/

/-- A directory without a `listFault?` does not refuse a flat listing. -/
theorem not_refuses_flat (hgives : tree.listFault? directory = none) :
    ¬ tree.Refuses levels directory place false := by
  intro hrefuses
  cases hrefuses with
  | flat fault hfault =>
      rw [hgives] at hfault
      cases hfault

theorem refusal?_eq_none_iff :
    tree.refusal? levels directory names = none ↔ names.length ≤ levels ∧
      ∀ fault, tree.listFault? (directory.extend names) = some fault → fault = .denied := by
  unfold refusal?
  split
  · rename_i hdeep
    simp [Nat.not_le.2 hdeep]
  · rename_i hdeep
    cases hfault : tree.listFault? (directory.extend names) with
    | none => simp [Nat.le_of_not_lt hdeep]
    | some fault => cases fault <;> simp [Nat.le_of_not_lt hdeep]

/-- None of the directories that are visited has a `refusal?` exactly if nothing `Refuses` the
listing. -/
theorem findSome?_refusal?_eq_none_iff :
    (tree.visited directory place).findSome? (tree.refusal? levels directory) = none ↔
      ¬ tree.Refuses levels directory place true := by
  rw [List.findSome?_eq_none_iff]
  simp only [mem_visited_iff, refusal?_eq_none_iff]
  constructor
  · intro h hrefuses
    cases hrefuses with
    | unlisted names fault hvisits hfault hne => exact hne ((h names hvisits).2 fault hfault)
    | tooDeep names hvisits hdeep => exact absurd (h names hvisits).1 (Nat.not_le.2 hdeep)
  · intro h names hvisits
    refine ⟨Nat.le_of_not_lt fun hdeep => h (.tooDeep names hvisits hdeep), ?_⟩
    intro fault hfault
    apply Classical.byContradiction
    intro hne
    exact h (.unlisted names fault hvisits hfault hne)

/-- The result of `Tree.entries` is a refusal, or what the directory `Lists`, each entry once. -/
theorem entries_cases (tree : Tree) (levels : Nat) (directory : Path) (place : List String)
    (deep : Bool) :
    (∃ refusal, tree.entries levels directory place deep = .error refusal ∧
        tree.Refuses levels directory place deep) ∨
      ∃ found, tree.entries levels directory place deep = .ok found ∧ found.Nodup ∧
        (∀ names, names ∈ found ↔ tree.Lists deep directory place names) ∧
        ¬ tree.Refuses levels directory place deep := by
  have hnodup := nodup_deepEntries tree directory place
  unfold entries
  cases deep with
  | true =>
      simp only [if_true]
      split
      · rename_i refusal hrefusal
        refine Or.inl ⟨refusal, rfl, Classical.byContradiction fun hnot => ?_⟩
        rw [findSome?_refusal?_eq_none_iff.2 hnot] at hrefusal
        cases hrefusal
      · rename_i hnone
        exact Or.inr ⟨_, rfl, hnodup, fun names => mem_deepEntries_iff,
          findSome?_refusal?_eq_none_iff.1 hnone⟩
  | false =>
      simp only [Bool.false_eq_true, if_false]
      split
      · rename_i fault hfault
        exact Or.inl ⟨_, rfl, .flat fault hfault⟩
      · rename_i hgives
        refine Or.inr ⟨_, rfl, hnodup.filter _, fun names => ?_, fun hrefuses => ?_⟩
        · rw [List.mem_filter, mem_deepEntries_iff, lists_flat_iff_deep, beq_iff_eq]
        · exact not_refuses_flat hgives hrefuses

/-- The result of `Tree.entries` is a refusal exactly if something `Refuses` the listing. -/
theorem refuses_iff :
    tree.Refuses levels directory place deep ↔
      ∃ refusal, tree.entries levels directory place deep = .error refusal := by
  rcases entries_cases tree levels directory place deep with
    ⟨refusal, hrefusal, hrefuses⟩ | ⟨found, hfound, -, -, hnot⟩
  · exact iff_of_true hrefuses ⟨refusal, hrefusal⟩
  · refine iff_of_false hnot ?_
    rintro ⟨refusal, hrefusal⟩
    rw [hfound] at hrefusal
    cases hrefusal

end Entries

end FileClerk.Scan.Tree
