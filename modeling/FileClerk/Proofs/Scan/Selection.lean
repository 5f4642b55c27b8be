import Mathlib.Data.List.Sort
import FileClerk.Proofs.Scan.Tree
import FileClerk.Scan.Basic

/-!
# Which entries a scan takes

An entry is to be taken when it stands below the directory, is a file behind its links, has a name
that no pattern describes, and is not hidden by a dot at its name or at a directory on the way
(`Selected`). `_should_ignore` and the tests behind it in `scan` decide this in another order
(`examine_eq`).

`selection` is the list of the entries that are taken out of a listing. It depends on the settings
and on what each entry is by itself. It is in strict order, so it is known by its members, and
selections are compared by their members: the flat one with the deep one, and those of settings that
differ in hidden names or in a pattern.
-/

set_option autoImplicit false

namespace FileClerk.Scan

/-! ## Which entries are taken -/

/-- The entry is one that `scan` is to take: it stands below the directory, it is a file behind its
links, no pattern describes its name, and neither its name nor that of a directory on the way is
hidden, unless `includeHidden`. -/
structure Selected (settings : ScannerSettings) (tree : Tree) (directory : Path)
    (place names : List String) : Prop where
  inside : tree.Holds settings.intoSubdirectories place names
  file : ∃ info, tree.inspect (directory.extend names) = .ok (.file info)
  wanted : ∀ pattern, Value.text pattern ∈ settings.ignorePatterns →
    Pattern.matchesName pattern (names.getLast?.getD "") = false
  visible : settings.includeHidden = true ∨ ∀ name ∈ names, isHidden name = false

/-- All patterns are texts. -/
def TextPatterns (settings : ScannerSettings) : Prop :=
  ∀ pattern ∈ settings.ignorePatterns, ∃ s, pattern = .text s

/-- The pattern is a text that `Pattern.matchesName` the name. -/
def describesName (name : String) : Value → Bool
  | .text pattern => Pattern.matchesName pattern name
  | _ => false

/-- On texts `isIgnored`, which models `_should_ignore`, does not fail. -/
theorem isIgnored_eq {patterns : List Value} (h : ∀ pattern ∈ patterns, ∃ s, pattern = .text s)
    (name : String) : isIgnored name patterns = .ok (patterns.any (describesName name)) := by
  induction patterns with
  | nil => rfl
  | cons first rest ih =>
      obtain ⟨s, rfl⟩ := h first List.mem_cons_self
      have ih' := ih fun pattern hpattern => h pattern (List.mem_cons_of_mem _ hpattern)
      rw [isIgnored, ih', List.any_cons, describesName]
      cases Pattern.matchesName s name with
      | true => rfl
      | false => rfl

theorem any_describesName_eq_false_iff {patterns : List Value} {name : String} :
    patterns.any (describesName name) = false ↔
      ∀ pattern, Value.text pattern ∈ patterns → Pattern.matchesName pattern name = false := by
  rw [List.any_eq_false]
  constructor
  · intro h pattern hpattern
    exact Bool.eq_false_iff.2 (h _ hpattern)
  · intro h value hvalue
    cases value with
    | text pattern => exact Bool.eq_false_iff.1 (h pattern hvalue)
    | _ => exact Bool.false_ne_true

/-- The names lead to an entry that is left out, whatever it is. -/
def passedOver (settings : ScannerSettings) (names : List String) : Bool :=
  settings.ignorePatterns.any (describesName (names.getLast?.getD "")) ||
    !settings.includeHidden && names.any isHidden

theorem passedOver_eq_false_iff {settings : ScannerSettings} {names : List String} :
    passedOver settings names = false ↔
      (∀ pattern, Value.text pattern ∈ settings.ignorePatterns →
        Pattern.matchesName pattern (names.getLast?.getD "") = false) ∧
      (settings.includeHidden = true ∨ ∀ name ∈ names, isHidden name = false) := by
  rw [passedOver, Bool.or_eq_false_iff, any_describesName_eq_false_iff, Bool.and_eq_false_iff,
    Bool.not_eq_false', List.any_eq_false]
  simp only [Bool.not_eq_true]

/-- What `examine` makes of an entry when all patterns are texts. -/
def verdict (settings : ScannerSettings) (tree : Tree) (directory : Path) (names : List String) :
    Except ScanFault Finding :=
  if passedOver settings names then .ok .leftOut else reachable tree (directory.extend names)

/-- The entry is a file behind its links, and it is not `passedOver`. -/
def isTaken (settings : ScannerSettings) (tree : Tree) (directory : Path) (names : List String) :
    Bool :=
  !passedOver settings names &&
    match tree.inspect (directory.extend names) with
    | .ok (.file _) => true
    | _ => false

/-- The result of `Tree.entries`, empty if it is refused. -/
def listing (tree : Tree) (directory : Path) (place : List String) (deep : Bool) :
    List (List String) :=
  (tree.deepEntries directory place).filter fun names => deep || names.length == 1

/-- The entries of `listing` that are `isTaken`, in the order of their paths. -/
def selection (settings : ScannerSettings) (tree : Tree) (directory : Path)
    (place : List String) : List (List String) :=
  ((listing tree directory place settings.intoSubdirectories).mergeSort inPathOrder).filter
    (isTaken settings tree directory)

section Entries

variable {settings : ScannerSettings} {tree : Tree} {directory : Path} {place names : List String}

/-- With patterns that are texts, every entry is judged. -/
theorem examine_eq (h : TextPatterns settings) (hne : names ≠ []) :
    examine settings tree directory names = verdict settings tree directory names := by
  obtain ⟨front, last, rfl⟩ : ∃ front last, names = front ++ [last] :=
    ⟨names.dropLast, names.getLast hne, (List.dropLast_append_getLast hne).symm⟩
  unfold examine verdict passedOver
  simp only [isIgnored_eq h, List.getLast?_append, List.getLast?_singleton, Option.some_or,
    Option.getD_some, List.dropLast_concat, List.any_append, List.any_cons, List.any_nil,
    Bool.or_false]
  -- the tests come in another order, and each of them leaves the entry out
  cases settings.includeHidden with
  | true => cases settings.ignorePatterns.any (describesName last) <;> rfl
  | false =>
      cases isHidden last with
      | true => simp
      | false =>
          cases settings.ignorePatterns.any (describesName last) with
          | true => rfl
          | false => cases front.any isHidden <;> rfl

theorem isTaken_iff :
    isTaken settings tree directory names = true ↔ passedOver settings names = false ∧
      ∃ info, tree.inspect (directory.extend names) = .ok (.file info) := by
  rw [isTaken, Bool.and_eq_true, Bool.not_eq_true']
  refine and_congr_right fun _ => ?_
  split
  · rename_i info hfile
    exact iff_of_true rfl ⟨info, hfile⟩
  · rename_i hother
    refine iff_of_false Bool.false_ne_true ?_
    rintro ⟨info, hfile⟩
    exact hother info hfile

/-- What a scan is to take is taken wherever it is listed. -/
theorem Selected.isTaken (h : Selected settings tree directory place names) :
    isTaken settings tree directory names = true :=
  isTaken_iff.2 ⟨passedOver_eq_false_iff.2 ⟨h.wanted, h.visible⟩, h.file⟩

theorem mem_listing_iff {deep : Bool} :
    names ∈ listing tree directory place deep ↔ tree.Lists deep directory place names := by
  rw [listing, List.mem_filter, Tree.mem_deepEntries_iff]
  cases deep with
  | true => simp
  | false => rw [Tree.lists_flat_iff_deep, Bool.false_or, beq_iff_eq]

/-- The entries of `selection` are those that are `Selected` and that the tree `Lists`. -/
theorem mem_selection_iff :
    names ∈ selection settings tree directory place ↔
      tree.Lists settings.intoSubdirectories directory place names ∧
        Selected settings tree directory place names := by
  rw [selection, List.mem_filter, List.mem_mergeSort, mem_listing_iff, isTaken_iff,
    passedOver_eq_false_iff]
  refine and_congr_right fun hlisted => ?_
  constructor
  · rintro ⟨⟨hwanted, hvisible⟩, hfile⟩
    exact ⟨hlisted.holds, hfile, hwanted, hvisible⟩
  · rintro ⟨-, hfile, hwanted, hvisible⟩
    exact ⟨⟨hwanted, hvisible⟩, hfile⟩

/-- Different entries are put into strict order. -/
theorem pairwise_mergeSort {entries : List (List String)} (h : entries.Nodup) :
    (entries.mergeSort inPathOrder).Pairwise (· < ·) := by
  have hsorted : (entries.mergeSort inPathOrder).Pairwise fun a b => inPathOrder a b = true := by
    apply List.pairwise_mergeSort
    · intro a b c hab hbc
      simp only [inPathOrder, Bool.not_eq_true', decide_eq_false_iff_not, List.not_lt]
        at hab hbc ⊢
      exact List.le_trans hab hbc
    · intro a b
      simp only [inPathOrder, Bool.or_eq_true, Bool.not_eq_true', decide_eq_false_iff_not,
        List.not_lt]
      exact List.le_total a b
  have hnodup : (entries.mergeSort inPathOrder).Nodup := (List.mergeSort_perm _ _).nodup_iff.2 h
  -- an order without repeats is strict
  refine (hsorted.and hnodup).imp ?_
  rintro a b ⟨hle, hne⟩
  simp only [inPathOrder, Bool.not_eq_true', decide_eq_false_iff_not, List.not_lt] at hle
  exact (List.le_iff_lt_or_eq.1 hle).resolve_right hne

/-- The `selection` is strictly in order. -/
theorem selection_pairwise (settings : ScannerSettings) (tree : Tree) (directory : Path)
    (place : List String) :
    (selection settings tree directory place).Pairwise (· < ·) := by
  have hnodup : (listing tree directory place settings.intoSubdirectories).Nodup :=
    (tree.nodup_deepEntries directory place).filter _
  exact (pairwise_mergeSort hnodup).filter _

end Entries

/-! ## Selections compared -/

section Compared

variable {settings settings' : ScannerSettings} {tree tree' : Tree} {directory : Path}
  {place : List String}

/-- A selection with some of the members of another one is a part of it. -/
theorem selection_sublist
    (hsubset : selection settings tree directory place ⊆
      selection settings' tree directory place) :
    (selection settings tree directory place).Sublist
      (selection settings' tree directory place) := by
  have hsorted := selection_pairwise settings tree directory place
  exact List.sublist_of_subperm_of_pairwise (List.subperm_of_subset hsorted.nodup hsubset)
    hsorted (selection_pairwise settings' tree directory place)

/-- A selection whose members are those of another one with a further property is that part of it.
-/
theorem selection_eq_filter (keep : List String → Bool)
    (hiff : ∀ names, names ∈ selection settings tree directory place ↔
      names ∈ selection settings' tree' directory place ∧ keep names = true) :
    selection settings tree directory place =
      (selection settings' tree' directory place).filter keep := by
  apply (selection_pairwise settings tree directory place).eq_of_mem_iff
    ((selection_pairwise settings' tree' directory place).filter _)
  intro names
  rw [List.mem_filter, hiff]

/-- The flat `selection` is the part of the deep one that is one name deep. -/
theorem selection_flat (settings : ScannerSettings) (tree : Tree) (directory : Path)
    (place : List String) :
    selection { settings with intoSubdirectories := false } tree directory place =
      (selection { settings with intoSubdirectories := true } tree directory place).filter
        fun names => names.length == 1 := by
  refine selection_eq_filter _ fun names => ?_
  rw [mem_selection_iff, mem_selection_iff, beq_iff_eq]
  constructor
  · rintro ⟨hlisted, h⟩
    obtain ⟨hdeep, hlen⟩ := Tree.lists_flat_iff_deep.1 hlisted
    exact ⟨⟨hdeep, hdeep.holds, h.file, h.wanted, h.visible⟩, hlen⟩
  · rintro ⟨⟨hlisted, h⟩, hlen⟩
    have hflat := Tree.lists_flat_iff_deep.2 ⟨hlisted, hlen⟩
    exact ⟨hflat, hflat.holds, h.file, h.wanted, h.visible⟩

/-- With `includeHidden` entries come in addition. -/
theorem selection_hidden (settings : ScannerSettings) (tree : Tree) (directory : Path)
    (place : List String) :
    (selection { settings with includeHidden := false } tree directory place).Sublist
      (selection { settings with includeHidden := true } tree directory place) := by
  apply selection_sublist
  intro names hnames
  obtain ⟨hlisted, h⟩ := mem_selection_iff.1 hnames
  exact mem_selection_iff.2 ⟨hlisted, h.inside, h.file, h.wanted, Or.inl rfl⟩

/-- A further pattern only takes entries away. -/
theorem selection_pattern (settings : ScannerSettings) (tree : Tree) (directory : Path)
    (place : List String) (pattern : String) :
    (selection { settings with ignorePatterns := settings.ignorePatterns ++ [.text pattern] } tree
      directory place).Sublist (selection settings tree directory place) := by
  apply selection_sublist
  intro names hnames
  obtain ⟨hlisted, h⟩ := mem_selection_iff.1 hnames
  exact mem_selection_iff.2 ⟨hlisted, h.inside, h.file,
    fun s hs => h.wanted s (List.mem_append_left _ hs), h.visible⟩

/-- In a tree that differs in that some of the entries fail, those are lost and no others. -/
theorem selection_failing {failing : Tree}
    (hlists : ∀ names, failing.Lists settings.intoSubdirectories directory place names ↔
      tree.Lists settings.intoSubdirectories directory place names)
    (hinspect : ∀ names, tree.Lists settings.intoSubdirectories directory place names →
      failing.inspect (directory.extend names) = tree.inspect (directory.extend names) ∨
        ∃ fault, failing.inspect (directory.extend names) = .error fault) :
    selection settings failing directory place =
      (selection settings tree directory place).filter fun names =>
        (failing.inspect (directory.extend names)).isOk := by
  refine selection_eq_filter _ fun names => ?_
  rw [mem_selection_iff, mem_selection_iff, hlists]
  constructor
  · rintro ⟨hlisted, h⟩
    obtain ⟨info, hfile⟩ := h.file
    rcases hinspect names hlisted with hsame | ⟨fault, hfault⟩
    · -- a file that is found in the failing tree is the same in the other one
      exact ⟨⟨hlisted, hlisted.holds, ⟨info, hsame ▸ hfile⟩, h.wanted, h.visible⟩,
        by rw [hfile]; rfl⟩
    · rw [hfile] at hfault
      cases hfault
  · rintro ⟨⟨hlisted, h⟩, hok⟩
    obtain ⟨info, hfile⟩ := h.file
    rcases hinspect names hlisted with hsame | ⟨fault, hfault⟩
    · exact ⟨hlisted, ((hlists names).2 hlisted).holds, ⟨info, hsame.trans hfile⟩, h.wanted,
        h.visible⟩
    · rw [hfault] at hok
      cases hok

end Compared

end FileClerk.Scan
