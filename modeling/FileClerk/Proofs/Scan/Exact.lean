import Mathlib.Algebra.Ring.Nat
import FileClerk.Proofs.Lookup
import FileClerk.Proofs.Scan.Selection
import FileClerk.Proofs.Text.Lower

/-!
# What a scan finds

`scan` is exact if it gives one record for each entry that it is to take, in the order of the names
that lead there, and nothing else (`ExactScan`).

The scan of a directory that can be read and listed, with patterns that are texts, is exact if and
only if nothing refuses the listing, every file that it is to take has a time with a moment, and
every directory on the way to such a file gives its names (`scan_exact_iff`). Each of the three may
fail (`scan_not_always_exact`).
-/

set_option autoImplicit false

namespace FileClerk.Scan

/-! ## Records -/

/-- The time of the file at an entry has a `moment`. -/
def IsDated (tree : Tree) (directory : Path) (names : List String) : Prop :=
  ∀ info, tree.inspect (directory.extend names) = .ok (.file info) →
    ∃ modified, info.modified.moment = .ok modified

/-- The record describes the file at an entry: its name, its size and time of modification, its
extension in normal form, and its path from `directory` on. -/
structure Describes (tree : Tree) (directory : Path) (names : List String) (record : Record) :
    Prop where
  file : ∃ info, tree.inspect (directory.extend names) = .ok (.file info) ∧
    record.size = info.size ∧ info.modified.moment = .ok record.modified
  name : names.getLast? = some record.name
  extension : record.extension = normalExtension (Path.suffixOf record.name)
  normal : normalExtension record.extension = record.extension
  path : record.path = directory.name ++ "/" ++ "/".intercalate names

/-- Numbers beside the members of a list change nothing about what holds of each of them. -/
theorem forall₂_zipIdx {α : Type} {R : α → α × Nat → Prop} {l : List α}
    (h : ∀ a ∈ l, ∀ n, R a (a, n)) (start : Nat) : List.Forall₂ R l (l.zipIdx start) := by
  induction l generalizing start with
  | nil => exact .nil
  | cons a rest ih =>
      rw [List.zipIdx_cons]
      exact .cons (h a List.mem_cons_self start)
        (ih (fun b hb => h b (List.mem_cons_of_mem _ hb)) (start + 1))

/-- The size and the time of a finding that is a file. -/
def Finding.file? : Finding → Option (Nat × Moment)
  | .file size modified => some (size, modified)
  | _ => none

/-- The finding of `verdict` at an entry; nothing where it fails. -/
def foundAt (settings : ScannerSettings) (tree : Tree) (directory : Path) (names : List String) :
    Finding :=
  (verdict settings tree directory names).toOption.getD .leftOut

section Records

variable {settings : ScannerSettings} {tree : Tree} {directory : Path} {names : List String}

/-- What stands at an entry whose file has a moment is found. -/
theorem verdict_eq_ok
    (h : isTaken settings tree directory names = true → IsDated tree directory names) :
    verdict settings tree directory names = .ok (foundAt settings tree directory names) := by
  rw [foundAt]
  unfold verdict reachable
  cases hover : passedOver settings names with
  | true => rfl
  | false =>
      rw [if_neg Bool.false_ne_true]
      split
      · rename_i info hfile
        obtain ⟨modified, hmodified⟩ := h (isTaken_iff.2 ⟨hover, info, hfile⟩) info hfile
        rw [hmodified]
        rfl
      · rfl
      · rfl

/-- An entry is found to be a file when it is taken and the time of the file has a moment. -/
theorem file?_foundAt_eq_some_iff {size : Nat} {modified : Moment} :
    (foundAt settings tree directory names).file? = some (size, modified) ↔
      passedOver settings names = false ∧ ∃ info,
        tree.inspect (directory.extend names) = .ok (.file info) ∧ size = info.size ∧
          info.modified.moment = .ok modified := by
  unfold foundAt verdict reachable
  cases passedOver settings names with
  | true => simp [Except.toOption, Finding.file?]
  | false =>
      rw [if_neg Bool.false_ne_true]
      cases tree.inspect (directory.extend names) with
      | error fault =>
          cases fault <;> simp [AccessFault.meansAbsent, Except.toOption, Finding.file?]
      | ok node =>
          cases node with
          | file info =>
              cases hmoment : info.modified.moment with
              | ok found => simp [hmoment, Except.toOption, Finding.file?, eq_comm]
              | error fault =>
                  cases fault <;> simp [hmoment, Except.toOption, Finding.file?]
          | directory => simp [Except.toOption, Finding.file?]
          | link target => simp [Except.toOption, Finding.file?]

/-- Among entries whose files have moments, those that are found to be files are the ones taken. -/
theorem isSome_file?_foundAt
    (h : isTaken settings tree directory names = true → IsDated tree directory names) :
    (foundAt settings tree directory names).file?.isSome =
      isTaken settings tree directory names := by
  rw [Bool.eq_iff_iff, Option.isSome_iff_exists]
  constructor
  · rintro ⟨⟨size, modified⟩, hfile⟩
    obtain ⟨hover, info, hinfo, -, -⟩ := file?_foundAt_eq_some_iff.1 hfile
    exact isTaken_iff.2 ⟨hover, info, hinfo⟩
  · intro htaken
    obtain ⟨hover, info, hinfo⟩ := isTaken_iff.1 htaken
    obtain ⟨modified, hmodified⟩ := h htaken info hinfo
    exact ⟨(info.size, modified),
      file?_foundAt_eq_some_iff.2 ⟨hover, info, hinfo, rfl, hmodified⟩⟩

/-- The record of a file describes it. -/
theorem describes_recordOf {info : FileInfo} {modified : Moment} (hne : names ≠ [])
    (hfile : tree.inspect (directory.extend names) = .ok (.file info))
    (hmodified : info.modified.moment = .ok modified) (id : String) :
    Describes tree directory names
      (recordOf id (names.getLast?.getD "") (shownBelow directory names) info.size modified) where
  file := ⟨info, hfile, rfl, hmodified⟩
  name := by
    rw [List.getLast?_eq_some_getLast hne]
    rfl
  extension := rfl
  normal := normalExtension_normalExtension _
  path := by
    have hparts : names.isEmpty = false := by
      rwa [List.isEmpty_eq_false_iff]
    simp [recordOf, shownBelow, Path.text, hparts]

/-- The findings at entries whose files have moments. -/
theorem findings_eq (hpatterns : TextPatterns settings) {entries : List (List String)}
    (hne : ∀ names ∈ entries, names ≠ [])
    (hdated : ∀ names ∈ entries, isTaken settings tree directory names = true →
      IsDated tree directory names) :
    findings settings tree directory entries =
      (entries.map fun names => (names, foundAt settings tree directory names), none) := by
  induction entries with
  | nil => rfl
  | cons names rest ih =>
      obtain ⟨hfirst, hrest⟩ := List.forall_mem_cons.1 hne
      obtain ⟨hdate, hdates⟩ := List.forall_mem_cons.1 hdated
      rw [findings, examine_eq hpatterns hfirst, verdict_eq_ok hdate]
      simp only [ih hrest hdates, List.map_cons]

/-- The files that `foundAt` finds among the entries, with what is known about them. -/
def filesAmong (settings : ScannerSettings) (tree : Tree) (directory : Path)
    (entries : List (List String)) : List (List String × Nat × Moment) :=
  entries.filterMap fun names =>
    (foundAt settings tree directory names).file?.map fun file => (names, file)

/-- The files among the entries are the entries that are taken. -/
theorem map_fst_filesAmong {entries : List (List String)}
    (hdated : ∀ names ∈ entries, isTaken settings tree directory names = true →
      IsDated tree directory names) :
    (filesAmong settings tree directory entries).map Prod.fst =
      entries.filter (isTaken settings tree directory) := by
  rw [filesAmong, List.map_filterMap, ← List.filterMap_eq_filter]
  apply List.filterMap_congr
  intro names hnames
  have hsome := isSome_file?_foundAt (hdated names hnames)
  cases hfile : (foundAt settings tree directory names).file? with
  | none =>
      rw [hfile] at hsome
      simp [Option.guard, ← hsome]
  | some file =>
      rw [hfile] at hsome
      simp [Option.guard, ← hsome]

/-- The records of `recordsOf` have `Describes` for the entries that are taken, one by one. -/
theorem forall₂_recordsOf {entries : List (List String)} (hne : ∀ names ∈ entries, names ≠ [])
    (hdated : ∀ names ∈ entries, isTaken settings tree directory names = true →
      IsDated tree directory names) :
    List.Forall₂ (Describes tree directory) (entries.filter (isTaken settings tree directory))
      (recordsOf directory
        (entries.map fun names => (names, foundAt settings tree directory names))) := by
  have hfiles : recordsOf directory
      (entries.map fun names => (names, foundAt settings tree directory names)) =
      (filesAmong settings tree directory entries).zipIdx.map fun file =>
        recordOf (recordId (file.2 + 1)) (file.1.1.getLast?.getD "")
          (shownBelow directory file.1.1) file.1.2.1 file.1.2.2 := by
    rw [recordsOf, List.filterMap_map, filesAmong]
    congr 2
    apply List.filterMap_congr
    intro names _
    rw [Function.comp_apply]
    cases foundAt settings tree directory names <;> rfl
  -- both sides come from the files among the entries, on one of them with a number beside each
  rw [hfiles, ← map_fst_filesAmong hdated, List.forall₂_map_left_iff, List.forall₂_map_right_iff]
  refine forall₂_zipIdx (fun file hfile number => ?_) 0
  obtain ⟨names, hnames, hfound⟩ := List.mem_filterMap.1 hfile
  obtain ⟨⟨size, modified⟩, hfileAt, rfl⟩ := Option.map_eq_some_iff.1 hfound
  obtain ⟨-, info, hinfo, rfl, hmodified⟩ := file?_foundAt_eq_some_iff.1 hfileAt
  exact describes_recordOf (hne names hnames) hinfo hmodified _

end Records

/-! ## Scans -/

/-- What holds of an exact `scan` of the directory `target`, which stands at `place`. -/
structure ExactScan (world : World) (settings : ScannerSettings) (directory target : Path)
    (place : List String) : Prop where
  /-- The records have `Describes` for the `selection`, one by one. -/
  records : ∃ records, (scan world settings directory).result = .ok records ∧
    List.Forall₂ (Describes world.tree target) (selection settings world.tree target place) records
  /-- The `selection` has all entries that are `Selected`, and no others. -/
  mem_iff : ∀ names, names ∈ selection settings world.tree target place ↔
    Selected settings world.tree target place names
  /-- Each of them comes before the ones behind it. -/
  ordered : (selection settings world.tree target place).Pairwise (· < ·)
  /-- A flat scan takes what a deep one takes one name deep. -/
  flat : selection { settings with intoSubdirectories := false } world.tree target place =
    (selection { settings with intoSubdirectories := true } world.tree target place).filter
      fun names => names.length == 1
  /-- Hidden entries come in addition. -/
  hidden : (selection { settings with includeHidden := false } world.tree target place).Sublist
    (selection { settings with includeHidden := true } world.tree target place)
  /-- A further pattern only takes entries away. -/
  pattern : ∀ pattern, (selection
      { settings with ignorePatterns := settings.ignorePatterns ++ [.text pattern] } world.tree
      target place).Sublist (selection settings world.tree target place)
  /-- In a tree that differs in that some entries fail, the scan loses those and no others. -/
  failing : ∀ failing : Tree,
    (∀ names, failing.Lists settings.intoSubdirectories target place names ↔
      world.tree.Lists settings.intoSubdirectories target place names) →
    (∀ names, world.tree.Lists settings.intoSubdirectories target place names →
      failing.inspect (target.extend names) = world.tree.inspect (target.extend names) ∨
        ∃ fault, failing.inspect (target.extend names) = .error fault) →
    selection settings failing target place =
      (selection settings world.tree target place).filter fun names =>
        (failing.inspect (target.extend names)).isOk

section Scans

variable {world : World} {settings : ScannerSettings} {directory target : Path}
  {place : List String}

/-- The scan of a directory that is there goes on at its place. -/
theorem scan_eq_scanPlace (hhome : directory.expandHome world.homes = some target)
    (hread : world.tree.inspect target = .ok .directory)
    (hplace : world.tree.locate target = .ok place) :
    scan world settings directory = scanPlace world settings target place := by
  unfold scan
  rw [hhome]
  simp only [hread, hplace]

/-- A `scanPlace` whose listing is not refused gives records for its `selection`, if the files in it
have moments. -/
theorem scanPlace_result (hpatterns : TextPatterns settings)
    (hlisted : ¬ world.tree.Refuses world.levels target place settings.intoSubdirectories)
    (hdated : ∀ names ∈ selection settings world.tree target place,
      IsDated world.tree target names) :
    ∃ records, (scanPlace world settings target place).result = .ok records ∧
      List.Forall₂ (Describes world.tree target) (selection settings world.tree target place)
        records := by
  obtain ⟨refusal, -, hrefuses⟩ | ⟨found, hfound, hnodup, hmem, -⟩ :=
    world.tree.entries_cases world.levels target place settings.intoSubdirectories
  · exact absurd hrefuses hlisted
  · have hentries : ∀ names, names ∈ found.mergeSort inPathOrder ↔
        world.tree.Lists settings.intoSubdirectories target place names := by
      intro names
      rw [List.mem_mergeSort, hmem]
    have hne : ∀ names ∈ found.mergeSort inPathOrder, names ≠ [] := by
      intro names hnames
      exact ((hentries names).1 hnames).ne_nil
    -- two lists in strict order are the same if they have the same members
    have hselection : selection settings world.tree target place =
        (found.mergeSort inPathOrder).filter (isTaken settings world.tree target) := by
      apply (selection_pairwise settings world.tree target place).eq_of_mem_iff
        ((pairwise_mergeSort hnodup).filter _)
      intro names
      rw [selection, List.mem_filter, List.mem_filter, hentries, List.mem_mergeSort,
        mem_listing_iff]
    have hdates : ∀ names ∈ found.mergeSort inPathOrder,
        isTaken settings world.tree target names = true → IsDated world.tree target names := by
      intro names hnames htaken
      exact hdated names (hselection ▸ List.mem_filter.2 ⟨hnames, htaken⟩)
    refine ⟨_, ?_, hselection ▸ forall₂_recordsOf hne hdates⟩
    rw [scanPlace, hfound]
    simp only [findings_eq hpatterns hne hdates]

/-- Nothing `Refuses` the listing of an exact scan. -/
theorem ExactScan.not_refuses (h : ExactScan world settings directory target place)
    (hhome : directory.expandHome world.homes = some target)
    (hread : world.tree.inspect target = .ok .directory)
    (hplace : world.tree.locate target = .ok place) :
    ¬ world.tree.Refuses world.levels target place settings.intoSubdirectories := by
  intro hrefuses
  obtain ⟨records, hresult, -⟩ := h.records
  obtain ⟨refusal, hrefusal⟩ := Tree.refuses_iff.1 hrefuses
  rw [scan_eq_scanPlace hhome hread hplace, scanPlace, hrefusal] at hresult
  cases hresult

/-- An entry that is `Selected` is dated in an exact scan. -/
theorem ExactScan.isDated (h : ExactScan world settings directory target place)
    {names : List String} (hselected : Selected settings world.tree target place names) :
    IsDated world.tree target names := by
  intro info hfile
  obtain ⟨records, -, hrecords⟩ := h.records
  -- the record at the position of the entry describes it, and a record has a moment
  obtain ⟨i, hi, hname⟩ := List.mem_iff_getElem.1 ((h.mem_iff names).2 hselected)
  obtain ⟨hlength, hget⟩ := List.forall₂_iff_get.1 hrecords
  have hdescribes := hget i hi (hlength ▸ hi)
  rw [List.get_eq_getElem, hname] at hdescribes
  obtain ⟨info', hinfo', -, hmodified⟩ := hdescribes.file
  obtain rfl : info = info' := by simpa [hfile] using hinfo'
  exact ⟨_, hmodified⟩

/-- The `scan` of a directory that can be read and listed, with patterns that are texts, is an
`ExactScan` if nothing `Refuses` the listing, and the files that are `Selected` are listed and have
moments; and only then. -/
theorem scan_exact_iff (hpatterns : TextPatterns settings)
    (hhome : directory.expandHome world.homes = some target)
    (hread : world.tree.inspect target = .ok .directory)
    (hplace : world.tree.locate target = .ok place) (hlist : place ∉ world.tree.unlistable) :
    ExactScan world settings directory target place ↔
      (settings.intoSubdirectories = true →
        ¬ world.tree.Refuses world.levels target place true) ∧
      ∀ names, Selected settings world.tree target place names →
        world.tree.Lists settings.intoSubdirectories target place names ∧
          IsDated world.tree target names := by
  constructor
  · -- an exact scan has records, so that its listing was not refused
    intro hexact
    refine ⟨fun hdeep => ?_, fun names hselected => ⟨?_, hexact.isDated hselected⟩⟩
    · exact hdeep ▸ hexact.not_refuses hhome hread hplace
    · exact (mem_selection_iff.1 ((hexact.mem_iff names).2 hselected)).1
  · rintro ⟨hdeep, hfound⟩
    have hgives : world.tree.listFault? target = none := by
      rw [Tree.listFault?, hplace]
      simp [hlist]
    have hlisted : ¬ world.tree.Refuses world.levels target place
        settings.intoSubdirectories := by
      cases hsettings : settings.intoSubdirectories with
      | true => exact hdeep hsettings
      | false => exact Tree.not_refuses_flat hgives
    have hmem : ∀ names, names ∈ selection settings world.tree target place ↔
        Selected settings world.tree target place names := fun names =>
      mem_selection_iff.trans ⟨And.right, fun h => ⟨(hfound names h).1, h⟩⟩
    exact {
      records := by
        rw [scan_eq_scanPlace hhome hread hplace]
        exact scanPlace_result hpatterns hlisted fun names hnames =>
          (hfound names ((hmem names).1 hnames)).2
      mem_iff := hmem
      ordered := selection_pairwise settings world.tree target place
      flat := selection_flat settings world.tree target place
      hidden := selection_hidden settings world.tree target place
      pattern := selection_pattern settings world.tree target place
      failing := fun failing => selection_failing }

end Scans

/-! ## A sample -/

/-- Patterns that are given as texts are texts. -/
theorem textPatterns_map (patterns : List String) (intoSubdirectories includeHidden : Bool) :
    TextPatterns ⟨patterns.map Value.text, intoSubdirectories, includeHidden⟩ := by
  intro pattern hpattern
  obtain ⟨s, -, rfl⟩ := List.mem_map.1 hpattern
  exact ⟨s, rfl⟩

/-- The time of what stands at a place, if it is a file. -/
def Node.time? : Node → Option FileTime
  | .file info => some info.modified
  | _ => none

/-- In a tree whose files all have moments, every entry is dated. -/
theorem isDated_of_forall_time? {tree : Tree} {directory : Path}
    (h : ∀ entry ∈ tree.nodes, ∀ time ∈ entry.2.time?, time.moment.isOk = true)
    (names : List String) : IsDated tree directory names := by
  intro info hfile
  unfold Tree.inspect at hfile
  cases hplace : tree.locate (directory.extend names) with
  | error fault => simp [hplace, bind, Except.bind] at hfile
  | ok place =>
      cases hnode : tree.node? place with
      | none => simp [hplace, hnode, bind, Except.bind] at hfile
      | some node =>
          obtain rfl : node = .file info := by
            simpa [hplace, hnode, bind, Except.bind, pure, Except.pure] using hfile
          rw [Tree.node?] at hnode
          split at hnode
          · cases hnode
          · have hok := h _ (mem_of_lookup hnode) info.modified rfl
            cases hmoment : info.modified.moment with
            | error fault =>
                rw [hmoment] at hok
                cases hok
            | ok modified => exact ⟨modified, rfl⟩

/-- A folder with a plain and a hidden file, a link that leads to the plain one, and two folders,
one of which does not give its names; there is only a hidden file in it. -/
def sampleTree : Tree where
  here := []
  nodes := [(["docs"], .directory), (["docs", "Plan.PDF"], .file ⟨10, ⟨0, 0⟩, none⟩),
    (["docs", ".notes.txt"], .file ⟨20, ⟨0, 0⟩, none⟩),
    (["docs", "latest.pdf"], .link ⟨false, ["Plan.PDF"]⟩),
    (["docs", "old"], .directory), (["docs", "old", "a.txt"], .file ⟨30, ⟨0, 0⟩, none⟩),
    (["docs", "shut"], .directory), (["docs", "shut", ".b.txt"], .file ⟨40, ⟨0, 0⟩, none⟩)]
  unreadable := []
  unlistable := [["docs", "shut"]]
  distinct := by decide

/-- A world with a tree in which a deep listing can go down nine levels. -/
def worldOf (tree : Tree) : World := ⟨.only ⟨"/", ["home"]⟩, tree, 9, .ofInt 0⟩

/-- The deep scan of the sample folder. -/
theorem scan_exact_sample :
    ExactScan (worldOf sampleTree) { intoSubdirectories := true } ⟨"", ["docs"]⟩ ⟨"", ["docs"]⟩
      ["docs"] := by
  have hlisted : ¬ sampleTree.Refuses 9 ⟨"", ["docs"]⟩ ["docs"] true :=
    Tree.findSome?_refusal?_eq_none_iff.1 rfl
  have hdated : ∀ names, IsDated sampleTree ⟨"", ["docs"]⟩ names :=
    isDated_of_forall_time? (by decide +kernel)
  have htaken : ∀ names ∈ sampleTree.namesBelow ["docs"],
      isTaken { intoSubdirectories := true } sampleTree ⟨"", ["docs"]⟩ names = true →
        names ∈ listing sampleTree ⟨"", ["docs"]⟩ ["docs"] true := by
    decide +kernel
  exact (scan_exact_iff (textPatterns_map _ _ _) rfl rfl rfl (by decide)).2
    ⟨fun _ => hlisted, fun names hselected =>
      ⟨mem_listing_iff.1 (htaken names hselected.inside.mem_namesBelow hselected.isTaken),
        hdated names⟩⟩

/-! ## Scans that are not exact -/

/-- A folder with a file whose time is in the year 10000. -/
def lateTree : Tree where
  here := []
  nodes := [(["data"], .directory), (["data", "a"], .file ⟨1, ⟨253402300800, 0⟩, none⟩)]
  unreadable := []
  unlistable := []
  distinct := by decide

/-- The flat scan fails at the file of `lateTree`. -/
theorem not_exactScan_lateTree :
    ¬ ExactScan (worldOf lateTree) {} ⟨"", ["data"]⟩ ⟨"", ["data"]⟩ ["data"] := by
  intro hexact
  have htime : FileTime.moment ⟨253402300800, 0⟩ = .error (.year 10000) := by decide +kernel
  obtain ⟨hwanted, hvisible⟩ := passedOver_eq_false_iff.1
    (show passedOver {} ["a"] = false by decide +kernel)
  have hselected : Selected {} lateTree ⟨"", ["data"]⟩ ["data"] ["a"] :=
    ⟨.child _ _ (by decide), ⟨_, rfl⟩, hwanted, hvisible⟩
  obtain ⟨modified, hmodified⟩ := hexact.isDated hselected _ rfl
  rw [htime] at hmodified
  cases hmodified

/-- A folder with a folder that does not give its names, with a file in it. -/
def shutTree : Tree where
  here := []
  nodes := [(["data"], .directory), (["data", "shut"], .directory),
    (["data", "shut", "a"], .file ⟨1, ⟨0, 0⟩, none⟩)]
  unreadable := []
  unlistable := [["data", "shut"]]
  distinct := by decide

/-- The deep scan of `shutTree` loses its file. -/
theorem not_exactScan_shutTree :
    ¬ ExactScan (worldOf shutTree) { intoSubdirectories := true } ⟨"", ["data"]⟩ ⟨"", ["data"]⟩
      ["data"] := by
  intro hexact
  obtain ⟨hwanted, hvisible⟩ := passedOver_eq_false_iff.1
    (show passedOver { intoSubdirectories := true } ["shut", "a"] = false by decide +kernel)
  have hselected : Selected { intoSubdirectories := true } shutTree ⟨"", ["data"]⟩ ["data"]
      ["shut", "a"] :=
    ⟨.deeper _ _ _ rfl rfl (.child _ _ (by decide)), ⟨_, rfl⟩, hwanted, hvisible⟩
  have hlost : ["shut", "a"] ∉ listing shutTree ⟨"", ["data"]⟩ ["data"] true := by
    decide +kernel
  exact hlost (mem_listing_iff.2 (mem_selection_iff.1 ((hexact.mem_iff _).2 hselected)).1)

/-- A folder with a file and a folder. -/
def nestedTree : Tree where
  here := []
  nodes := [(["data"], .directory), (["data", "a"], .file ⟨1, ⟨0, 0⟩, none⟩),
    (["data", "sub"], .directory)]
  unreadable := []
  unlistable := []
  distinct := by decide

/-- The path that leads to `data` and then out of it and in again so many times. -/
def windingPath (times : Nat) : Path :=
  ⟨"", "data" :: (List.replicate times ["..", "data"]).flatten⟩

/-- The bytes of parts with slashes between them. -/
theorem utf8ByteSize_intercalate (part : String) (parts : List String) :
    ("/".intercalate (part :: parts)).utf8ByteSize =
      part.utf8ByteSize + (parts.map fun p => 1 + p.utf8ByteSize).sum := by
  induction parts generalizing part with
  | nil => rw [String.intercalate_singleton]; rfl
  | cons next rest ih =>
      rw [String.intercalate_cons_cons, String.utf8ByteSize_append, String.utf8ByteSize_append, ih,
        List.map_cons, List.sum_cons]
      have hslash : "/".utf8ByteSize = 1 := rfl
      omega

/-- A winding path has eight more bytes for each turn. -/
theorem utf8ByteSize_windingPath (times : Nat) (names : List String) :
    ((windingPath times).extend names).text.utf8ByteSize =
      4 + 8 * times + (names.map fun p => 1 + p.utf8ByteSize).sum := by
  have hturns : ((List.replicate times ["..", "data"]).flatten.map fun p =>
      1 + p.utf8ByteSize).sum = 8 * times := by
    induction times with
    | zero => rfl
    | succ n ih =>
        rw [List.replicate_succ, List.flatten_cons, List.map_append, List.sum_append, ih]
        have hturn : (["..", "data"].map fun p => 1 + p.utf8ByteSize).sum = 8 := rfl
        omega
  have hfirst : "data".utf8ByteSize = 4 := rfl
  rw [Path.text, Path.extend, windingPath]
  simp only [List.cons_append, List.isEmpty_cons, Bool.and_false, Bool.false_eq_true, if_false]
  rw [String.empty_append, utf8ByteSize_intercalate, List.map_append, List.sum_append, hturns]
  omega

/-- The turns of a winding path lead back to where they start. -/
theorem steps_windingPath (follow : List String → List String → Except AccessFault (List String))
    (times : Nat) (names : List String) :
    nestedTree.steps follow ["data"] ((List.replicate times ["..", "data"]).flatten ++ names) =
      nestedTree.steps follow ["data"] names := by
  induction times with
  | zero => rfl
  | succ n ih =>
      rw [List.replicate_succ, List.flatten_cons, List.append_assoc]
      exact ih

theorem locate_windingPath {times : Nat} {names : List String}
    (h : 4 + 8 * times + (names.map fun p => 1 + p.utf8ByteSize).sum ≤ Tree.maxPathBytes) :
    nestedTree.locate ((windingPath times).extend names) =
      nestedTree.walk Tree.maxLinks ["data"] names := by
  rw [Tree.locate, utf8ByteSize_windingPath, if_neg (Nat.not_lt.2 h)]
  exact steps_windingPath (nestedTree.walk 39) times names

/-- The winding path leads to the folder. -/
theorem locate_windingPath_self {times : Nat} (h : 4 + 8 * times ≤ Tree.maxPathBytes) :
    nestedTree.locate (windingPath times) = .ok ["data"] := by
  rw [← Path.extend_nil (windingPath times), locate_windingPath h]
  rfl

/-- The path of the folder below has one byte more than a path may have. -/
theorem not_exactScan_nestedTree {times : Nat} (h : times = 511) :
    ¬ ExactScan (worldOf nestedTree) { intoSubdirectories := true } (windingPath times)
      (windingPath times) ["data"] := by
  intro hexact
  have hplace : nestedTree.locate (windingPath times) = .ok ["data"] :=
    locate_windingPath_self (by rw [h]; decide)
  have hread : nestedTree.inspect (windingPath times) = .ok .directory := by
    rw [Tree.inspect, hplace]
    rfl
  have hlong : Tree.maxPathBytes < ((windingPath times).extend ["sub"]).text.utf8ByteSize := by
    rw [utf8ByteSize_windingPath, h]
    decide
  have hgives : nestedTree.listFault? (windingPath times) = none := by
    rw [Tree.listFault?, hplace]
    rfl
  apply hexact.not_refuses rfl hread hplace
  refine .unlisted ["sub"] .nameTooLong (.below _ rfl (.child _ _ _ hgives (by decide)) rfl) ?_
    (by decide)
  simp only [worldOf, Tree.listFault?, Tree.locate, if_pos hlong]

/-- A scan is not always an `ExactScan`. With the default settings it fails at a file whose time is
in the year 10000. A deep scan of files whose times have moments fails if the path of a directory
below is too long for the system, although there is a file in reach. And a deep scan whose listing
nothing refuses loses the files in a directory that denies its names. -/
theorem scan_not_always_exact :
    (¬ ∀ (world : World) (directory target : Path) (place : List String),
      directory.expandHome world.homes = some target →
      world.tree.inspect target = .ok .directory → world.tree.locate target = .ok place →
      place ∉ world.tree.unlistable → ExactScan world {} directory target place) ∧
    (¬ ∀ (world : World) (directory target : Path) (place : List String),
      directory.expandHome world.homes = some target →
      world.tree.inspect target = .ok .directory → world.tree.locate target = .ok place →
      place ∉ world.tree.unlistable → (∀ names, IsDated world.tree target names) →
      ExactScan world { intoSubdirectories := true } directory target place) ∧
    ¬ ∀ (world : World) (directory target : Path) (place : List String),
      directory.expandHome world.homes = some target →
      world.tree.inspect target = .ok .directory → world.tree.locate target = .ok place →
      place ∉ world.tree.unlistable → (∀ names, IsDated world.tree target names) →
      ¬ world.tree.Refuses world.levels target place true →
      ExactScan world { intoSubdirectories := true } directory target place := by
  refine ⟨fun hall => ?_, fun hall => ?_, fun hall => ?_⟩
  · exact not_exactScan_lateTree (hall _ _ _ _ rfl rfl rfl (by decide))
  · -- the number of turns stays a variable, so that the path is never written out
    obtain ⟨times, htimes⟩ : ∃ times, times = 511 := ⟨_, rfl⟩
    have hplace : nestedTree.locate (windingPath times) = .ok ["data"] :=
      locate_windingPath_self (by rw [htimes]; decide)
    have hread : nestedTree.inspect (windingPath times) = .ok .directory := by
      rw [Tree.inspect, hplace]
      rfl
    exact not_exactScan_nestedTree htimes (hall (worldOf nestedTree) _ _ _ rfl hread hplace
      (by decide) (isDated_of_forall_time? (by decide +kernel)))
  · exact not_exactScan_shutTree (hall _ _ _ _ rfl rfl rfl (by decide)
      (isDated_of_forall_time? (by decide +kernel)) (Tree.findSome?_refusal?_eq_none_iff.1 rfl))

end FileClerk.Scan
