import FileClerk.Proofs.Scan.Exact

/-!
# How scans fail

A scan that finds nothing, or no directory, or a directory that it cannot list, says so in a report
that names the directory. The other ways to fail come without a report. The home directory of a user
may be unknown. The directory itself may be out of reach, which is not passed over as it is for an
entry. Directories may lie too deep for a deep listing. A pattern that is no text fails at the first
name that is compared with it; which names are depends on the patterns in front of it
(`MeetsNonText`) and on hidden names. And a file may have a time without a moment. `Stops` says at
which entries one of the last two happens.

`EndsAt` lists the ways in which the scan of a directory can end. Where none of the failures without
a report can happen a scan gives records or a report, and where one of them can it does not
(`conclusive_iff`).
-/

set_option autoImplicit false

namespace FileClerk.Scan

/-! ## Patterns that are no texts -/

/-- The patterns come to one that is no text: none in front of it describes the name. -/
inductive MeetsNonText (name : String) : List Value → Prop where
  | here (pattern : Value) (rest : List Value) :
      (∀ s, pattern ≠ .text s) → MeetsNonText name (pattern :: rest)
  | later (s : String) (rest : List Value) :
      Pattern.matchesName s name = false → MeetsNonText name rest →
      MeetsNonText name (.text s :: rest)

/-- The fault is that of a pattern that is no text. -/
def ScanFault.IsPatternFault (fault : ScanFault) : Prop :=
  fault = .bytesPattern ∨ ∃ kind, fault = .patternKind kind

theorem ScanFault.IsPatternFault.report?_eq {fault : ScanFault} (h : fault.IsPatternFault) :
    fault.report? = none := by
  rcases h with rfl | ⟨kind, rfl⟩
  · rfl
  · rfl

theorem isIgnored_of_ne_text {pattern : Value} (h : ∀ s, pattern ≠ .text s) (name : String)
    (rest : List Value) :
    ∃ fault, isIgnored name (pattern :: rest) = .error fault ∧ fault.IsPatternFault := by
  cases pattern with
  | text s => exact absurd rfl (h s)
  | bytes b => exact ⟨_, rfl, Or.inl rfl⟩
  | _ => exact ⟨_, rfl, Or.inr ⟨_, rfl⟩⟩

/-- The result of `isIgnored` is a fault exactly if it `MeetsNonText`. -/
theorem isIgnored_cases (name : String) (patterns : List Value) :
    (∃ fault, isIgnored name patterns = .error fault ∧ fault.IsPatternFault ∧
        MeetsNonText name patterns) ∨
      ∃ ignored, isIgnored name patterns = .ok ignored ∧ ¬ MeetsNonText name patterns := by
  -- the patterns are compared in order, up to one that describes the name or is no text
  induction patterns with
  | nil => exact Or.inr ⟨false, rfl, fun h => by cases h⟩
  | cons pattern rest ih =>
      by_cases htext : ∃ s, pattern = .text s
      · obtain ⟨s, rfl⟩ := htext
        have hfirst : ¬ ∀ s', Value.text s ≠ .text s' := fun h => h s rfl
        cases hmatches : Pattern.matchesName s name with
        | true =>
            refine Or.inr ⟨true, by simp [isIgnored, hmatches], fun h => ?_⟩
            cases h with
            | here _ _ hne => exact hfirst hne
            | later _ _ hno => simp [hmatches] at hno
        | false =>
            have hrest : isIgnored name (.text s :: rest) = isIgnored name rest := by
              simp [isIgnored, hmatches]
            rw [hrest]
            rcases ih with ⟨fault, hfault, hkind, hmeets⟩ | ⟨ignored, hignored, hmeets⟩
            · exact Or.inl ⟨fault, hfault, hkind, .later s rest hmatches hmeets⟩
            · refine Or.inr ⟨ignored, hignored, fun h => ?_⟩
              cases h with
              | here _ _ hne => exact hfirst hne
              | later _ _ _ hlater => exact hmeets hlater
      · have hne : ∀ s, pattern ≠ .text s := fun s hs => htext ⟨s, hs⟩
        obtain ⟨fault, hfault, hkind⟩ := isIgnored_of_ne_text hne name rest
        exact Or.inl ⟨fault, hfault, hkind, .here pattern rest hne⟩

/-- Every pattern is a text that does not describe the name. -/
def IsWanted (name : String) (patterns : List Value) : Prop :=
  ∀ pattern ∈ patterns, ∃ s, pattern = .text s ∧ Pattern.matchesName s name = false

/-- The result of `isIgnored` is `false` exactly if the name `IsWanted`. -/
theorem isIgnored_eq_false_iff {name : String} {patterns : List Value} :
    isIgnored name patterns = .ok false ↔ IsWanted name patterns := by
  induction patterns with
  | nil => exact iff_of_true rfl fun pattern hpattern => absurd hpattern List.not_mem_nil
  | cons pattern rest ih =>
      rw [IsWanted, List.forall_mem_cons]
      cases pattern with
      | text s =>
          cases hmatches : Pattern.matchesName s name with
          | true => simp [isIgnored, hmatches]
          | false =>
              have hrest : isIgnored name (.text s :: rest) = isIgnored name rest := by
                simp [isIgnored, hmatches]
              rw [hrest, ih]
              exact ⟨fun h => ⟨⟨s, rfl, hmatches⟩, h⟩, fun h => h.2⟩
      | _ => simp [isIgnored]

/-! ## Entries -/

/-- The scan stops at an entry. A pattern that is no text is reached at its name; patterns are not
looked at if the name is hidden and hidden names are not wanted. Or the entry is a file that is
neither ignored nor hidden, and its time has no `moment`; the fault `calendar` is passed over. -/
inductive Stops (settings : ScannerSettings) (tree : Tree) (directory : Path)
    (names : List String) : Prop where
  | pattern : settings.includeHidden = true ∨ isHidden (names.getLast?.getD "") = false →
      MeetsNonText (names.getLast?.getD "") settings.ignorePatterns →
      Stops settings tree directory names
  | time (info : FileInfo) (fault : FileTimeFault) :
      settings.includeHidden = true ∨
        isHidden (names.getLast?.getD "") = false ∧
          (∀ name ∈ names.dropLast, isHidden name = false) →
      IsWanted (names.getLast?.getD "") settings.ignorePatterns →
      tree.inspect (directory.extend names) = .ok (.file info) →
      info.modified.moment = .error fault → fault ≠ .calendar →
      Stops settings tree directory names

/-- What stops a scan at an entry has no report. -/
def ScanFault.IsStop (fault : ScanFault) : Prop :=
  fault.IsPatternFault ∨ ∃ time, fault = .fileTime time

theorem ScanFault.IsStop.report?_eq {fault : ScanFault} (h : fault.IsStop) :
    fault.report? = none := by
  rcases h with hpattern | ⟨time, rfl⟩
  · exact hpattern.report?_eq
  · rfl

section Entries

variable {settings : ScannerSettings} {tree : Tree} {directory : Path} {names : List String}

/-- A file is found, or its time stops the scan. -/
theorem reachable_cases (tree : Tree) (path : Path) :
    (∃ info fault, reachable tree path = .error (.fileTime fault) ∧
        tree.inspect path = .ok (.file info) ∧ info.modified.moment = .error fault ∧
          fault ≠ .calendar) ∨
      ∃ finding, reachable tree path = .ok finding ∧
        ∀ info fault, tree.inspect path = .ok (.file info) →
          info.modified.moment = .error fault → fault = .calendar := by
  unfold reachable
  cases hnode : tree.inspect path with
  | error fault => exact Or.inr ⟨_, rfl, fun info _ hfile => by cases hfile⟩
  | ok node =>
      cases node with
      | directory => exact Or.inr ⟨_, rfl, fun info _ hfile => by cases hfile⟩
      | link target => exact Or.inr ⟨_, rfl, fun info _ hfile => by cases hfile⟩
      | file info =>
          simp only
          cases hmoment : info.modified.moment with
          | ok modified =>
              refine Or.inr ⟨_, rfl, fun info' fault hfile hfault => ?_⟩
              cases hfile
              rw [hmoment] at hfault
              cases hfault
          | error fault =>
              by_cases hcalendar : fault = .calendar
              · subst hcalendar
                refine Or.inr ⟨_, rfl, fun info' fault hfile hfault => ?_⟩
                cases hfile
                rw [hmoment] at hfault
                exact (Except.error.inj hfault).symm
              · refine Or.inl ⟨info, fault, ?_, rfl, hmoment, hcalendar⟩
                cases fault with
                | calendar => exact absurd rfl hcalendar
                | seconds => rfl
                | year shown => rfl

/-- A scan does not stop at a hidden name that is not wanted, whatever stands there. -/
theorem not_stops_of_hidden (hinclude : settings.includeHidden = false)
    (hhidden : isHidden (names.getLast?.getD "") = true) :
    ¬ Stops settings tree directory names := by
  intro hstops
  cases hstops with
  | pattern hcompared _ => simp [hinclude, hhidden] at hcompared
  | time _ _ hvisible _ _ _ _ => simp [hinclude, hhidden] at hvisible

/-- Where no pattern stops a scan, it goes on if it does not come to a file or if the time of the
file has a moment. -/
theorem not_stops_of_not_meetsNonText
    (hmeets : ¬ MeetsNonText (names.getLast?.getD "") settings.ignorePatterns)
    (htime : settings.includeHidden = true ∨ (∀ name ∈ names.dropLast, isHidden name = false) →
      IsWanted (names.getLast?.getD "") settings.ignorePatterns →
      ∀ info fault, tree.inspect (directory.extend names) = .ok (.file info) →
        info.modified.moment = .error fault → fault = .calendar) :
    ¬ Stops settings tree directory names := by
  intro hstops
  cases hstops with
  | pattern _ hreached => exact hmeets hreached
  | time info fault hvisible hwanted hfile hmoment hne =>
      exact hne (htime (hvisible.imp_right And.right) hwanted info fault hfile hmoment)

/-- The result of `examine` is a fault exactly if the scan `Stops` at the entry. -/
theorem examine_cases (settings : ScannerSettings) (tree : Tree) (directory : Path)
    (names : List String) :
    (∃ fault, examine settings tree directory names = .error fault ∧ fault.IsStop ∧
        Stops settings tree directory names) ∨
      ∃ finding, examine settings tree directory names = .ok finding ∧
        ¬ Stops settings tree directory names := by
  unfold examine
  cases hown : !settings.includeHidden && isHidden (names.getLast?.getD "") with
  | true =>
      rw [Bool.and_eq_true, Bool.not_eq_true'] at hown
      exact Or.inr ⟨.leftOut, by simp [hown], not_stops_of_hidden hown.1 hown.2⟩
  | false =>
      have hcompared : settings.includeHidden = true ∨
          isHidden (names.getLast?.getD "") = false := by
        rwa [Bool.and_eq_false_iff, Bool.not_eq_false'] at hown
      simp only [hown, Bool.false_eq_true, if_false]
      rcases isIgnored_cases (names.getLast?.getD "") settings.ignorePatterns with
        ⟨fault, hfault, hkind, hmeets⟩ | ⟨ignored, hignored, hmeets⟩
      · exact Or.inl ⟨fault, by rw [hfault]; rfl, Or.inl hkind, .pattern hcompared hmeets⟩
      rw [hignored]
      -- no pattern stops the scan from here on, and each test rules one of the other parts out
      cases ignored with
      | true =>
          refine Or.inr ⟨_, rfl, not_stops_of_not_meetsNonText hmeets fun _ hwanted => ?_⟩
          rw [isIgnored_eq_false_iff.2 hwanted] at hignored
          cases hignored
      | false =>
          simp only [bind, Except.bind, Bool.false_eq_true, if_false]
          cases hfront : !settings.includeHidden && names.dropLast.any isHidden with
          | true =>
              rw [Bool.and_eq_true, Bool.not_eq_true', List.any_eq_true] at hfront
              obtain ⟨hinclude, name, hname, hhidden⟩ := hfront
              refine Or.inr ⟨_, rfl, not_stops_of_not_meetsNonText hmeets fun hvisible => ?_⟩
              rw [hinclude] at hvisible
              rw [hvisible.resolve_left Bool.false_ne_true name hname] at hhidden
              cases hhidden
          | false =>
              rcases reachable_cases tree (directory.extend names) with
                ⟨info, fault, hstop, hfile, hmoment, hne⟩ | ⟨finding, hfound, hnone⟩
              · rw [Bool.and_eq_false_iff, Bool.not_eq_false', List.any_eq_false] at hfront
                simp only [Bool.not_eq_true] at hfront
                have hvisible : settings.includeHidden = true ∨
                    isHidden (names.getLast?.getD "") = false ∧
                      ∀ name ∈ names.dropLast, isHidden name = false :=
                  or_and_left.2 ⟨hcompared, hfront⟩
                exact Or.inl ⟨_, hstop, Or.inr ⟨fault, rfl⟩,
                  .time info fault hvisible (isIgnored_eq_false_iff.1 hignored) hfile hmoment hne⟩
              · exact Or.inr ⟨finding, hfound,
                  not_stops_of_not_meetsNonText hmeets fun _ _ => hnone⟩

/-- The entries are examined up to the first at which the scan `Stops`. -/
theorem findings_cases (settings : ScannerSettings) (tree : Tree) (directory : Path)
    (entries : List (List String)) :
    (∃ found fault, findings settings tree directory entries = (found, some fault) ∧
        fault.IsStop ∧ ∃ names ∈ entries, Stops settings tree directory names) ∨
      ∃ found, findings settings tree directory entries = (found, none) ∧
        ∀ names ∈ entries, ¬ Stops settings tree directory names := by
  induction entries with
  | nil => exact Or.inr ⟨[], rfl, fun names hnames => by cases hnames⟩
  | cons names rest ih =>
      rw [findings]
      rcases examine_cases settings tree directory names with
        ⟨fault, hfault, hkind, hstops⟩ | ⟨finding, hfinding, hstops⟩
      · rw [hfault]
        exact Or.inl ⟨[], fault, rfl, hkind, names, List.mem_cons_self, hstops⟩
      · -- an entry that does not stop the scan leaves it to the rest
        rw [hfinding]
        rcases ih with ⟨found, fault, hrest, hkind, later, hlater, hmeets⟩ | ⟨found, hrest, hnone⟩
        · exact Or.inl ⟨_, fault, by rw [hrest], hkind, later, List.mem_cons_of_mem _ hlater,
            hmeets⟩
        · exact Or.inr ⟨_, by rw [hrest], List.forall_mem_cons.2 ⟨hstops, hnone⟩⟩

end Entries

/-! ## Scans -/

/-- The directory stands at `place`, and nothing `Refuses` its listing. -/
structure OpensAt (world : World) (settings : ScannerSettings) (directory : Path)
    (place : List String) : Prop where
  read : world.tree.inspect directory = .ok .directory
  located : world.tree.locate directory = .ok place
  listed : ¬ world.tree.Refuses world.levels directory place settings.intoSubdirectories

/-- How `scan` can end, the home directory having been put in. -/
inductive EndsAt (world : World) (settings : ScannerSettings) (directory : Path) :
    Except ScanFault (List Record) → Prop where
  | absent (fault : AccessFault) : world.tree.inspect directory = .error fault →
      fault.meansAbsent = true →
      EndsAt world settings directory (.error (.noDirectory (notFound directory)))
  | outOfReach (fault : AccessFault) : world.tree.inspect directory = .error fault →
      fault.meansAbsent = false → EndsAt world settings directory (.error (.access fault directory))
  | noDirectory (node : Node) : world.tree.inspect directory = .ok node → node ≠ .directory →
      EndsAt world settings directory (.error (.noDirectory (notADirectory directory)))
  | refused (place : List String) (refusal : Tree.Refusal) :
      world.tree.inspect directory = .ok .directory → world.tree.locate directory = .ok place →
      world.tree.entries world.levels directory place settings.intoSubdirectories =
        .error refusal → EndsAt world settings directory (.error (refused directory refusal))
  | stopped (place names : List String) (fault : ScanFault) :
      OpensAt world settings directory place →
      world.tree.Lists settings.intoSubdirectories directory place names →
      Stops settings world.tree directory names → fault.IsStop →
      EndsAt world settings directory (.error fault)
  | records (place : List String) (records : List Record) :
      OpensAt world settings directory place →
      (∀ names, world.tree.Lists settings.intoSubdirectories directory place names →
        ¬ Stops settings world.tree directory names) →
      EndsAt world settings directory (.ok records)

section Scans

variable {world : World} {settings : ScannerSettings} {directory target : Path}

/-- What can be inspected stands at a place. -/
theorem exists_locate_of_inspect {tree : Tree} {node : Node} (h : tree.inspect target = .ok node) :
    ∃ place, tree.locate target = .ok place := by
  unfold Tree.inspect at h
  cases hlocate : tree.locate target with
  | error fault => simp [hlocate, bind, Except.bind] at h
  | ok place => exact ⟨place, rfl⟩

/-- The scan of a directory at a place ends in one of the ways. -/
theorem scanPlace_endsAt {place : List String}
    (hread : world.tree.inspect target = .ok .directory)
    (hplace : world.tree.locate target = .ok place) :
    EndsAt world settings target (scanPlace world settings target place).result := by
  unfold scanPlace
  rcases world.tree.entries_cases world.levels target place settings.intoSubdirectories with
    ⟨refusal, hrefusal, -⟩ | ⟨entries, hentries, -, hmem, hlisted⟩
  · simp only [hrefusal]
    exact .refused place refusal hread hplace hrefusal
  · have hopens : OpensAt world settings target place := ⟨hread, hplace, hlisted⟩
    have hsorted : ∀ names, names ∈ entries.mergeSort inPathOrder ↔
        world.tree.Lists settings.intoSubdirectories target place names := by
      intro names
      rw [List.mem_mergeSort, hmem]
    simp only [hentries]
    rcases findings_cases settings world.tree target (entries.mergeSort inPathOrder) with
      ⟨found, fault, hfound, hkind, names, hnames, hstops⟩ | ⟨found, hfound, hnone⟩
    · rw [hfound]
      exact .stopped place names fault hopens ((hsorted names).1 hnames) hstops hkind
    · rw [hfound]
      exact .records place _ hopens fun names hnames => hnone names ((hsorted names).2 hnames)

/-- A `scan` fails if the home directory is unknown, and else it ends in one of the ways of
`EndsAt`. -/
theorem scan_endsAt (hhome : directory.expandHome world.homes = some target) :
    EndsAt world settings target (scan world settings directory).result := by
  unfold scan
  rw [hhome]
  simp only
  cases hread : world.tree.inspect target with
  | error fault =>
      cases habsent : fault.meansAbsent with
      | true =>
          simp only [habsent, if_true]
          exact .absent fault hread habsent
      | false =>
          simp only [habsent, Bool.false_eq_true, if_false]
          exact .outOfReach fault hread habsent
  | ok node =>
      obtain ⟨place, hplace⟩ := exists_locate_of_inspect hread
      rw [hplace]
      cases node with
      | directory => exact scanPlace_endsAt hread hplace
      | file info => exact .noDirectory _ hread (by simp)
      | link target => exact .noDirectory _ hread (by simp)

/-- The result of `scan` is a list of records, or a report of its own kind that names the directory:
a `ScanError`. -/
def Conclusive (world : World) (settings : ScannerSettings) (directory : Path) : Prop :=
  (∃ records, (scan world settings directory).result = .ok records) ∨
    ∃ target report, directory.expandHome world.homes = some target ∧
      (scan world settings directory).result = .error (.noDirectory report) ∧
      report.kind = .scan ∧ report.details = Report.textDetails [("directory", target.text)]

/-- The directory is not out of reach, nothing `Refuses` its listing by lying too deep, and the scan
`Stops` at no entry that it lists. -/
structure Scannable (world : World) (settings : ScannerSettings) (directory : Path) : Prop where
  inReach : ∀ fault, world.tree.inspect directory = .error fault → fault.meansAbsent = true
  shallow : ∀ place, world.tree.inspect directory = .ok .directory →
    world.tree.locate directory = .ok place →
    world.tree.entries world.levels directory place settings.intoSubdirectories ≠ .error .tooDeep
  passes : ∀ place names, OpensAt world settings directory place →
    world.tree.Lists settings.intoSubdirectories directory place names →
    ¬ Stops settings world.tree directory names

/-- What is found is in reach. -/
theorem inReach_of_ok {node : Node} (hread : world.tree.inspect target = .ok node) :
    ∀ fault, world.tree.inspect target = .error fault → fault.meansAbsent = true := by
  intro fault hfault
  rw [hread] at hfault
  cases hfault

/-- Where there is no directory, nothing is listed. -/
theorem Scannable.of_no_directory
    (hreach : ∀ fault, world.tree.inspect target = .error fault → fault.meansAbsent = true)
    (hno : world.tree.inspect target ≠ .ok .directory) : Scannable world settings target :=
  ⟨hreach, fun _ hread => absurd hread hno, fun _ _ hopens => absurd hopens.read hno⟩

/-- Of the ways in which a scan can end, those with records or a report are those of a directory
that is in reach, whose listing is not too deep, and at whose entries the scan does not stop. -/
theorem EndsAt.scannable_iff {result : Except ScanFault (List Record)}
    (h : EndsAt world settings target result) : Scannable world settings target ↔
      (∃ records, result = .ok records) ∨ ∃ report, result = .error (.noDirectory report) ∧
        report.kind = .scan ∧ report.details = Report.textDetails [("directory", target.text)] := by
  cases h with
  | absent fault hread habsent =>
      refine iff_of_true (.of_no_directory (fun fault' hfault => ?_) fun hdirectory => ?_)
        (Or.inr ⟨_, rfl, rfl, rfl⟩)
      · obtain rfl := Except.error.inj (hread.symm.trans hfault)
        exact habsent
      · rw [hread] at hdirectory
        cases hdirectory
  | outOfReach fault hread hpresent =>
      refine iff_of_false (fun h => ?_) (by simp)
      have habsent := h.inReach fault hread
      rw [hpresent] at habsent
      cases habsent
  | noDirectory node hread hnode =>
      refine iff_of_true (.of_no_directory (inReach_of_ok hread) fun hdirectory => ?_)
        (Or.inr ⟨_, rfl, rfl, rfl⟩)
      exact hnode (Except.ok.inj (hread.symm.trans hdirectory))
  | refused place refusal hread hplace hrefusal =>
      cases refusal with
      | tooDeep =>
          refine iff_of_false (fun h => h.shallow place hread hplace hrefusal) ?_
          rintro (⟨records, hrecords⟩ | ⟨report, hreport, -⟩)
          · cases hrecords
          · cases hreport
      | unlisted fault path =>
          refine iff_of_true ⟨inReach_of_ok hread, fun place' _ hplace' => ?_,
            fun place' names hopens => ?_⟩ (Or.inr ⟨_, rfl, rfl, rfl⟩)
          · obtain rfl := Except.ok.inj (hplace.symm.trans hplace')
            rw [hrefusal]
            intro hsame
            cases hsame
          · -- a listing that is refused is not opened
            obtain rfl := Except.ok.inj (hplace.symm.trans hopens.located)
            exact absurd (Tree.refuses_iff.2 ⟨_, hrefusal⟩) hopens.listed
  | stopped place names fault hopens hlists hstops hkind =>
      refine iff_of_false (fun h => h.passes place names hopens hlists hstops) ?_
      rintro (⟨records, hrecords⟩ | ⟨report, hreport, -⟩)
      · cases hrecords
      · have hnone := hkind.report?_eq
        rw [Except.error.inj hreport] at hnone
        cases hnone
  | records place records hopens hnone =>
      refine iff_of_true ⟨inReach_of_ok hopens.read, fun place' _ hplace' hdeep => ?_,
        fun place' names hopens' hlists => ?_⟩ (Or.inl ⟨records, rfl⟩)
      · obtain rfl := Except.ok.inj (hopens.located.symm.trans hplace')
        exact hopens.listed (Tree.refuses_iff.2 ⟨_, hdeep⟩)
      · obtain rfl := Except.ok.inj (hopens.located.symm.trans hopens'.located)
        exact hnone names hlists

/-- A failure that is no report is none of a scan. -/
theorem not_conclusive_of_error {fault : ScanFault}
    (hresult : (scan world settings directory).result = .error fault)
    (h : fault.report? = none) : ¬ Conclusive world settings directory := by
  rintro (⟨records, hrecords⟩ | ⟨target, report, -, hreport, -⟩)
  · simp [hresult] at hrecords
  · rw [hresult] at hreport
    simp [Except.error.inj hreport, ScanFault.report?] at h

/-- Where the home directory is known, a scan is `Conclusive` if the directory is `Scannable`, and
only then. -/
theorem conclusive_iff_scannable (hhome : directory.expandHome world.homes = some target) :
    Conclusive world settings directory ↔ Scannable world settings target := by
  have hends : EndsAt world settings target (scan world settings directory).result :=
    scan_endsAt hhome
  unfold Conclusive
  simp only [hhome, Option.some.injEq, exists_eq_left', exists_and_left]
  rw [hends.scannable_iff]

/-- A scan is `Conclusive` exactly if the home directory is known, the directory is not out of
reach, no directory below it lies too deep for the listing, and the scan stops at no entry, neither
at a pattern that is no text nor at a file time without a `moment`. -/
theorem conclusive_iff (world : World) (settings : ScannerSettings) (directory : Path) :
    Conclusive world settings directory ↔
      ∃ target, directory.expandHome world.homes = some target ∧
        Scannable world settings target := by
  cases hhome : directory.expandHome world.homes with
  | none =>
      have hresult : (scan world settings directory).result = .error .noHome := by
        rw [scan, hhome]
        rfl
      simp [not_conclusive_of_error hresult rfl]
  | some target =>
      rw [conclusive_iff_scannable hhome]
      simp

end Scans

/-- Nothing refuses a flat listing of a directory that gives its names. -/
theorem opensAt_flat {world : World} {settings : ScannerSettings} {directory : Path}
    {place : List String} (hflat : settings.intoSubdirectories = false)
    (hread : world.tree.inspect directory = .ok .directory)
    (hplace : world.tree.locate directory = .ok place)
    (hgives : world.tree.listFault? directory = none) :
    OpensAt world settings directory place :=
  ⟨hread, hplace, hflat ▸ Tree.not_refuses_flat hgives⟩

/-- A directory with one file. -/
def smallTree : Tree where
  here := []
  nodes := [(["data"], .directory), (["data", "a.txt"], .file ⟨1, ⟨0, 0⟩, none⟩)]
  unreadable := []
  unlistable := []
  distinct := by decide

/-- A scan may fail without a report: with the default settings if the directory is out of reach;
where everything is in reach if a pattern is a number, which `ScannerSettings.ofValue` takes; and
with the default settings and everything in reach if a file time has no `moment`. -/
theorem scan_may_fail_without_report :
    (¬ ∀ (world : World) (directory : Path), Conclusive world {} directory) ∧
    (¬ ∀ (given : Value) (settings : ScannerSettings) (directory : Path),
      ScannerSettings.ofValue given = .ok settings →
      Conclusive (worldOf smallTree) settings directory) ∧
    ¬ ∀ directory : Path, Conclusive (worldOf lateTree) {} directory := by
  refine ⟨fun hall => ?_, fun hall => ?_, fun hall => ?_⟩
  · have hscannable := (conclusive_iff_scannable rfl).1
      (hall (worldOf { smallTree with unreadable := [["data"]] }) ⟨"", ["data"]⟩)
    exact absurd (hscannable.inReach .denied rfl) Bool.false_ne_true
  · have hscannable := (conclusive_iff_scannable rfl).1
      (hall (.ofFields [("ignore_patterns", .list [.int 1])]) ⟨[.int 1], false, false⟩
        ⟨"", ["data"]⟩ rfl)
    have hstops : Stops ⟨[.int 1], false, false⟩ smallTree ⟨"", ["data"]⟩ ["a.txt"] :=
      .pattern (Or.inr rfl) (.here _ _ fun s => Value.noConfusion)
    exact hscannable.passes ["data"] ["a.txt"] (opensAt_flat rfl rfl rfl rfl)
      (.child _ _ _ rfl (by decide)) hstops
  · have hscannable := (conclusive_iff_scannable rfl).1 (hall ⟨"", ["data"]⟩)
    have htime : FileTime.moment ⟨253402300800, 0⟩ = .error (.year 10000) := by decide +kernel
    have hpatterns : TextPatterns {} := textPatterns_map _ false false
    have hnone : standardPatterns.any (describesName "a") = false := by decide +kernel
    have hwanted : IsWanted "a" standardPatterns :=
      isIgnored_eq_false_iff.1 ((isIgnored_eq hpatterns "a").trans (congrArg Except.ok hnone))
    have hstops : Stops {} lateTree ⟨"", ["data"]⟩ ["a"] :=
      .time _ _ (Or.inr ⟨rfl, by simp⟩) hwanted rfl htime (by decide)
    exact hscannable.passes ["data"] ["a"] (opensAt_flat rfl rfl rfl rfl)
      (.child _ _ _ rfl (by decide)) hstops

end FileClerk.Scan
