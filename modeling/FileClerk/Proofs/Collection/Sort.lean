import FileClerk.Collection.Basic

/-!
# Orders of records

Every sort key puts records in a total order with ties (`inOrder_total`, `inOrder_trans`), also when
it is turned round. A sort rearranges a collection (`arranged_perm`), and a sublist of a sorted
collection is sorted already (`arranged_eq_self`): ties keep their places, so sorting it again
changes nothing. Leaving records out before a sort comes to the same as leaving them out after it
(`arranged_filter`).

Sorts by time need moments of one kind. `MutuallyComparable` says so of each two records, and it is
the only condition under which a sort has a result (`sorted_eq`, `byRecency_eq`).
-/

set_option autoImplicit false

namespace FileClerk.Collection

open FileClerk.Text FileClerk.Command

/-! ## The orders -/

theorem precedes_total (key : SortKey) (a b : Record) :
    precedes key a b = true ∨ precedes key b a = true := by
  cases key with
  | size => simpa [precedes] using Nat.le_total a.size b.size
  | date => simpa [precedes] using Int.le_total a.modified.place b.modified.place
  | name => simpa [precedes] using String.le_total (nameKey a) (nameKey b)

theorem precedes_trans {key : SortKey} {a b c : Record} (hab : precedes key a b = true)
    (hbc : precedes key b c = true) : precedes key a c = true := by
  cases key with
  | size =>
      simp only [precedes, decide_eq_true_eq] at hab hbc ⊢
      exact Nat.le_trans hab hbc
  | date =>
      simp only [precedes, decide_eq_true_eq] at hab hbc ⊢
      exact Int.le_trans hab hbc
  | name =>
      simp only [precedes, decide_eq_true_eq] at hab hbc ⊢
      exact String.le_trans hab hbc

/-- The function `inOrder` is total, in both directions. -/
theorem inOrder_total (key : SortKey) (descending : Bool) (a b : Record) :
    (inOrder key descending a b || inOrder key descending b a) = true := by
  rw [Bool.or_eq_true]
  cases descending with
  | false => exact precedes_total key a b
  | true => exact precedes_total key b a

theorem inOrder_trans (key : SortKey) (descending : Bool) (a b c : Record)
    (hab : inOrder key descending a b = true) (hbc : inOrder key descending b c = true) :
    inOrder key descending a c = true := by
  cases descending with
  | false => exact precedes_trans hab hbc
  | true => exact precedes_trans hbc hab

/-! ## Sorted collections -/

/-- The records in the order of `key` by a merge sort; for `none` they keep their places. -/
def arranged (key : Option SortKey) (descending : Bool) (files : List Record) : List Record :=
  match key with
  | none => files
  | some key => files.mergeSort (inOrder key descending)

/-- A sort only rearranges. -/
theorem arranged_perm (key : Option SortKey) (descending : Bool) (files : List Record) :
    (arranged key descending files).Perm files := by
  cases key with
  | none => exact List.Perm.refl files
  | some key => exact List.mergeSort_perm files (inOrder key descending)

theorem mem_arranged {key : Option SortKey} {descending : Bool} {files : List Record}
    {r : Record} : r ∈ arranged key descending files ↔ r ∈ files :=
  (arranged_perm key descending files).mem_iff

/-- Earlier records of a sorted collection are in order with later ones. -/
theorem arranged_pairwise (key : SortKey) (descending : Bool) (files : List Record) :
    (arranged (some key) descending files).Pairwise fun a b => inOrder key descending a b = true :=
  List.pairwise_mergeSort (inOrder_trans key descending) (inOrder_total key descending) files

/-- A sublist of `arranged key descending files` keeps its order when it is sorted. -/
theorem arranged_eq_self {key : Option SortKey} {descending : Bool} {part files : List Record}
    (h : part.Sublist (arranged key descending files)) : arranged key descending part = part := by
  cases key with
  | none => rfl
  | some key =>
      -- records of a sublist are in order with each other, so a stable sort moves none
      have hpart := (arranged_pairwise key descending files).sublist h
      exact List.mergeSort_of_pairwise hpart

/-- The function `arranged` sorts the first record of a collection in behind the records that must
precede it and before all others. -/
theorem arranged_cons (key : SortKey) (descending : Bool) (first : Record) (rest : List Record) :
    ∃ before behind, arranged (some key) descending (first :: rest) = before ++ first :: behind ∧
      arranged (some key) descending rest = before ++ behind ∧
      (∀ r ∈ before, inOrder key descending first r = false) ∧
      ∀ r ∈ behind, inOrder key descending first r = true := by
  obtain ⟨before, behind, hwhole, hrest, hbefore⟩ :=
    List.mergeSort_cons (inOrder_trans key descending) (inOrder_total key descending) first rest
  have hsorted := arranged_pairwise key descending (first :: rest)
  rw [arranged, hwhole] at hsorted
  refine ⟨before, behind, hwhole, hrest, fun r hr => by simpa using hbefore r hr, ?_⟩
  exact (List.pairwise_cons.1 (List.pairwise_append.1 hsorted).2.1).1

/-- A list is cut in one way only into records without a property and records with it. -/
theorem eq_of_append_eq_append {p : Record → Bool} {before behind before' behind' : List Record}
    (h : before ++ behind = before' ++ behind')
    (hbefore : ∀ r ∈ before, p r = false) (hbehind : ∀ r ∈ behind, p r = true)
    (hbefore' : ∀ r ∈ before', p r = false) (hbehind' : ∀ r ∈ behind', p r = true) :
    before = before' ∧ behind = behind' := by
  have hwith : ∀ {front back : List Record}, (∀ r ∈ front, p r = false) →
      (∀ r ∈ back, p r = true) → (front ++ back).filter p = back := by
    intro front back hfront hback
    have hnone : front.filter p = [] :=
      List.filter_eq_nil_iff.2 fun r hr => by simp [hfront r hr]
    rw [List.filter_append, hnone, List.filter_eq_self.2 hback, List.nil_append]
  have hbehinds : behind = behind' := by
    rw [← hwith hbefore hbehind, h, hwith hbefore' hbehind']
  rw [hbehinds] at h
  exact ⟨List.append_cancel_right h, hbehinds⟩

/-- A filter of `arranged` is `arranged` of the filter. -/
theorem arranged_filter (key : Option SortKey) (descending : Bool) (keep : Record → Bool)
    (files : List Record) :
    (arranged key descending files).filter keep = arranged key descending (files.filter keep) := by
  cases key with
  | none => rfl
  | some key =>
      induction files with
      | nil => simp [arranged]
      | cons first rest ih =>
          obtain ⟨before, behind, hwhole, hrest, hbefore, hbehind⟩ :=
            arranged_cons key descending first rest
          rw [hrest, List.filter_append] at ih
          rw [hwhole, List.filter_append]
          by_cases hkeep : keep first = true
          · -- the first record goes to the one place between those before and those behind it
            obtain ⟨before', behind', hwhole', hrest', hbefore', hbehind'⟩ :=
              arranged_cons key descending first (rest.filter keep)
            obtain ⟨rfl, rfl⟩ := eq_of_append_eq_append (ih.trans hrest')
              (fun r hr => hbefore r (List.mem_filter.1 hr).1)
              (fun r hr => hbehind r (List.mem_filter.1 hr).1) hbefore' hbehind'
            rw [List.filter_cons_of_pos hkeep, List.filter_cons_of_pos hkeep, hwhole']
          · rw [List.filter_cons_of_neg hkeep, List.filter_cons_of_neg hkeep, ih]

/-! ## Comparable moments -/

/-- Each two records have moments of one kind: both with an offset or both without. It is what the
comparison of two `modified_at` needs. -/
def MutuallyComparable (files : List Record) : Prop :=
  ∀ a ∈ files, ∀ b ∈ files, a.modified.offset.isSome = b.modified.offset.isSome

theorem comparable_iff (files : List Record) :
    comparable files = true ↔ MutuallyComparable files := by
  simp only [comparable, Bool.or_eq_true, List.all_eq_true]
  constructor
  · rintro (h | h) a ha b hb
    · rw [h a ha, h b hb]
    · rw [Option.isNone_iff_eq_none.1 (h a ha), Option.isNone_iff_eq_none.1 (h b hb)]
  · intro h
    cases files with
    | nil => exact Or.inl fun r hr => by cases hr
    | cons first rest =>
        cases hfirst : first.modified.offset.isSome with
        | true =>
            refine Or.inl fun r hr => ?_
            rw [h r hr first List.mem_cons_self, hfirst]
        | false =>
            refine Or.inr fun r hr => ?_
            rw [← Option.not_isSome, h r hr first List.mem_cons_self, hfirst]
            rfl

instance (files : List Record) : Decidable (MutuallyComparable files) :=
  decidable_of_iff _ (comparable_iff files)

/-- Fewer records are comparable if all are. -/
theorem MutuallyComparable.mono {part files : List Record} (h : MutuallyComparable files)
    (hsub : ∀ r ∈ part, r ∈ files) : MutuallyComparable part :=
  fun a ha b hb => h a (hsub a ha) b (hsub b hb)

/-! ## Results of sorts -/

/-- The function `sorted` fails with `incomparableMoments` exactly if it is by `date` and the
collection is not `MutuallyComparable`; otherwise it is `arranged`. -/
theorem sorted_eq (key : Option SortKey) (descending : Bool) (files : List Record) :
    sorted key descending files =
      if key = some .date ∧ ¬ MutuallyComparable files then .error .incomparableMoments
      else .ok (arranged key descending files) := by
  cases key with
  | none => simp [sorted, arranged]
  | some key =>
      simp only [sorted, sortBy, arranged, ← comparable_iff]
      cases key <;> cases comparable files <;> simp

/-- The result of `byRecency` is a prefix of the collection `arranged` by `date`, under the same
condition as `sorted`. -/
theorem byRecency_eq (newestFirst : Bool) (limit : Option Int) (files : List Record) :
    byRecency newestFirst limit files =
      if MutuallyComparable files then .ok (upTo limit (arranged (some .date) newestFirst files))
      else .error .incomparableMoments := by
  simp only [byRecency, sortBy, arranged, ← comparable_iff]
  cases comparable files <;> simp [Except.map]

/-! ## Limits -/

/-- What a limit leaves stands at the start. -/
theorem upTo_prefix_self (limit : Option Int) (files : List Record) :
    upTo limit files <+: files := by
  unfold upTo
  split
  · exact List.prefix_refl files
  · split
    · exact List.take_prefix _ files
    · exact List.take_prefix _ files

theorem upTo_sublist (limit : Option Int) (files : List Record) :
    (upTo limit files).Sublist files :=
  (upTo_prefix_self limit files).sublist

/-- The function `upTo` with a limit that is not negative changes nothing in what it left before. -/
theorem upTo_eq_self {limit : Option Int} (hlimit : ∀ n ∈ limit, 0 ≤ n)
    {part files : List Record} (h : part.Sublist (upTo limit files)) : upTo limit part = part := by
  cases limit with
  | none => rfl
  | some n =>
      have hn : ¬ n < 0 := Int.not_lt.2 (hlimit n rfl)
      simp only [upTo, if_neg hn] at h ⊢
      have hlen : part.length ≤ n.toNat := by
        calc part.length ≤ (files.take n.toNat).length := h.length_le
          _ ≤ n.toNat := List.length_take_le _ _
      exact List.take_of_length_le hlen

end FileClerk.Collection
