import FileClerk.Path
import FileClerk.Proofs.Text.CharClass
import FileClerk.Proofs.Text.Split

/-!
# Paths and their texts

A path that is read from a text has parts with characters in them, without slashes, and no part is
a single dot (`isNormal_ofText`). Such a path is read back from its own text (`ofText_text`), so a
path can be kept as a text.

A leading tilde stands for a home directory. If that is absolute, nothing is left to be replaced in
a path whose tilde has been replaced (`expandHome_expandHome`).
-/

set_option autoImplicit false

namespace FileClerk.Path

open FileClerk.Text

/-! ## Normal form -/

/-- The part is not empty, has no `/`, and is not `.`. -/
structure IsPart (part : String) : Prop where
  ne_empty : part ≠ ""
  ne_dot : part ≠ "."
  slashFree : '/' ∉ part.toList

/-- The root is one of the three roots that there are, and each part `IsPart`. -/
structure IsNormal (p : Path) : Prop where
  root : p.root = "" ∨ p.root = "/" ∨ p.root = "//"
  parts : ∀ part ∈ p.parts, IsPart part

/-- What `ofText` reads is in normal form. -/
theorem isNormal_ofText (s : String) : (ofText s).IsNormal where
  root := by
    simp only [ofText]
    split
    · exact Or.inl rfl
    · split
      · exact Or.inr (Or.inr rfl)
      · exact Or.inr (Or.inl rfl)
  parts := by
    intro part hpart
    obtain ⟨hmem, hkept⟩ := List.mem_filter.1 hpart
    obtain ⟨stretch, hstretch, rfl⟩ := List.mem_map.1 hmem
    rw [Bool.and_eq_true, bne_iff_ne, bne_iff_ne] at hkept
    refine ⟨hkept.1, hkept.2, ?_⟩
    rw [String.toList_ofList]
    exact not_mem_of_mem_splitAtChar hstretch

/-- A text that starts with a slash denotes a path with a root. -/
theorem root_ofText_ne_empty {s : String} (h : s.toList.head? = some '/') :
    (ofText s).root ≠ "" := by
  obtain ⟨rest, hs⟩ : ∃ rest, s.toList = '/' :: rest := by
    cases hchars : s.toList with
    | nil => simp [hchars] at h
    | cons c rest => exact ⟨rest, by rw [hchars] at h; simpa using h⟩
  simp only [ofText, hs, List.takeWhile_cons, beq_self_eq_true, if_true, List.length_cons]
  rw [if_neg (by simp)]
  split
  · decide
  · decide

/-- A path in normal form stays so in `extend`. -/
theorem IsNormal.extend {p : Path} (h : p.IsNormal) {names : List String}
    (hnames : ∀ name ∈ names, IsPart name) : (p.extend names).IsNormal where
  root := h.root
  parts := by
    intro part hpart
    rcases List.mem_append.1 hpart with hmem | hmem
    · exact h.parts part hmem
    · exact hnames part hmem

/-- An entry of a directory is in normal form if the directory and the name are. -/
theorem IsNormal.child {p : Path} (h : p.IsNormal) {name : String} (hname : IsPart name) :
    (p.child name).IsNormal :=
  h.extend (List.forall_mem_singleton.2 hname)

/-! ## Texts of paths -/

section Texts

variable {p : Path}

/-- The parts with `/` between them, as `text` writes them. -/
def joined (p : Path) : List Char := ['/'].intercalate (p.parts.map String.toList)

/-- A path that is not empty is written as its root and its parts. -/
theorem toList_text (h : p.root ≠ "" ∨ p.parts ≠ []) :
    p.text.toList = p.root.toList ++ p.joined := by
  have hcond : (p.root.isEmpty && p.parts.isEmpty) = false := by
    rw [Bool.and_eq_false_iff, String.isEmpty_eq_false_iff, List.isEmpty_eq_false_iff]
    exact h
  rw [text, hcond]
  simp [joined]

/-- Joined parts do not start with a slash. -/
theorem IsNormal.stopsBefore_joined (h : p.IsNormal) : StopsBefore (· == '/') p.joined := by
  rw [joined]
  cases hparts : p.parts with
  | nil => exact stopsBefore_nil _
  | cons first rest =>
      have hfirst := h.parts first (hparts ▸ List.mem_cons_self)
      have hstop : StopsBefore (· == '/') first.toList := by
        apply StopsBefore.of_forall
        intro c hc
        rw [beq_eq_false_iff_ne]
        rintro rfl
        exact hfirst.slashFree hc
      have hne : first.toList ≠ [] := by
        rw [ne_eq, String.toList_eq_nil_iff]
        exact hfirst.ne_empty
      cases rest with
      | nil => simpa using hstop
      | cons second more =>
          -- the first part comes before the first slash, and it is not empty
          rw [List.map_cons, List.map_cons, List.intercalate_cons_cons, List.append_assoc]
          exact stopsBefore_append hne hstop _

/-- The parts are found again between the slashes. -/
theorem IsNormal.filter_splitParts_joined (h : p.IsNormal) :
    (splitParts p.joined).filter (fun part => part != "" && part != ".") = p.parts := by
  rw [joined, splitParts]
  by_cases hnil : p.parts = []
  · rw [hnil]
    rfl
  · have hfree : ∀ stretch ∈ p.parts.map String.toList, '/' ∉ stretch := by
      intro stretch hstretch
      obtain ⟨part, hpart, rfl⟩ := List.mem_map.1 hstretch
      exact (h.parts part hpart).slashFree
    rw [splitAtChar_intercalate (by simpa using hnil) hfree, List.map_map, List.map_id'']
    · apply List.filter_eq_self.2
      intro part hpart
      rw [Bool.and_eq_true, bne_iff_ne, bne_iff_ne]
      exact ⟨(h.parts part hpart).ne_empty, (h.parts part hpart).ne_dot⟩
    · intro part
      exact String.ofList_toList

/-- On paths in normal form `ofText` undoes `text`. -/
theorem ofText_text (h : p.IsNormal) : ofText p.text = p := by
  by_cases hempty : p.root = "" ∧ p.parts = []
  · obtain ⟨root, parts⟩ := p
    obtain ⟨rfl, rfl⟩ := hempty
    decide
  · have htext := toList_text (not_and_or.1 hempty)
    have hparts := h.filter_splitParts_joined
    have hstop := h.stopsBefore_joined
    -- the slashes of the root stand before the joined parts, and an empty part is left out
    have hslash : ∀ s, (splitParts ('/' :: s)).filter (fun part => part != "" && part != ".") =
        (splitParts s).filter (fun part => part != "" && part != ".") := by
      intro s
      rfl
    rw [ofText, htext]
    obtain ⟨root, parts⟩ := p
    rcases h.root with hroot | hroot | hroot
    · obtain rfl : root = "" := hroot
      simp [hstop.takeWhile_eq, hparts]
    · obtain rfl : root = "/" := hroot
      simp [hstop.takeWhile_eq, hslash, hparts]
    · obtain rfl : root = "//" := hroot
      simp [hstop.takeWhile_eq, hslash, hparts]

/-- No path has an empty text. -/
theorem IsNormal.text_ne_empty (h : p.IsNormal) : p.text ≠ "" := by
  intro hempty
  have hback := ofText_text h
  rw [hempty] at hback
  rw [← hback] at hempty
  exact absurd hempty (by decide)

end Texts

/-! ## Home directories -/

/-- The path is in normal form and has a root. -/
structure IsAbsolute (p : Path) : Prop where
  normal : p.IsNormal
  root : p.root ≠ ""

/-- A text that starts with a slash denotes an absolute path. -/
theorem isAbsolute_ofText {s : String} (h : s.toList.head? = some '/') : (ofText s).IsAbsolute :=
  ⟨isNormal_ofText s, root_ofText_ne_empty h⟩

section Home

variable {homes : Homes} {p q : Path}

/-- A path without a `tilde?` stays as it is, and otherwise its first part gives way to the home
directory that `homes` has for it. -/
theorem expandHome_cases (h : p.expandHome homes = some q) :
    q = p ∨ ∃ user home, p.tilde? = some user ∧ homes.find? user = some home ∧
      q = home.extend p.parts.tail := by
  unfold Path.expandHome at h
  split at h
  · exact Or.inl (Option.some.inj h).symm
  · rename_i user htilde
    obtain ⟨home, hhome, hq⟩ := Option.map_eq_some_iff.1 h
    exact Or.inr ⟨user, home, htilde, hhome, hq.symm⟩

/-- A path in normal form stays so when its tilde is replaced by an absolute home directory. -/
theorem IsNormal.expandHome (hp : p.IsNormal)
    (hhomes : ∀ user home, p.tilde? = some user → homes.find? user = some home → home.IsAbsolute)
    (h : p.expandHome homes = some q) : q.IsNormal := by
  rcases expandHome_cases h with rfl | ⟨user, home, htilde, hhome, rfl⟩
  · exact hp
  · apply (hhomes user home htilde hhome).normal.extend
    intro part hpart
    exact hp.parts part (List.mem_of_mem_tail hpart)

/-- A path with a root has no tilde to be replaced. -/
theorem expandHome_of_root_ne_empty (h : p.root ≠ "") : p.expandHome homes = some p := by
  have htilde : p.tilde? = none := by
    unfold Path.tilde?
    split
    · rename_i hroot _
      exact absurd hroot h
    · rfl
  rw [Path.expandHome, htilde]

/-- Home directories that are absolute leave nothing for a second `expandHome` to replace. -/
theorem expandHome_expandHome
    (hhomes : ∀ user home, p.tilde? = some user → homes.find? user = some home → home.IsAbsolute)
    (h : p.expandHome homes = some q) : q.expandHome homes = some q := by
  rcases expandHome_cases h with rfl | ⟨user, home, htilde, hhome, rfl⟩
  · exact h
  · -- the path starts at the root of the home directory now
    exact expandHome_of_root_ne_empty (hhomes user home htilde hhome).root

end Home

end FileClerk.Path
