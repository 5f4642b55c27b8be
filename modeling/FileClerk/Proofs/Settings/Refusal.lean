import FileClerk.Proofs.Catalogue
import FileClerk.Proofs.Settings.Reader

/-!
# Which settings are taken and which are refused

A mapping should either give settings that keep what it says or be refused with a report about the
settings (`Settings.Settled`). The readers do not always do so. An infinite number fails without a
report, and so does a section that is no mapping, a type word whose extensions cannot be gone
through, and whatever goes wrong with the scanner and the log. A text in place of a list of
extensions is taken for a list of its characters.

`Settings.settled_ofValue_iff` says for which mappings the outcome is as it should be: those in
which the first thing that is wrong is one of those that are checked, and those in which nothing is
wrong and every type word is given a list.
-/

set_option autoImplicit false

namespace FileClerk

/-! ## Reports -/

/-- The failure has a report of kind `configuration`: it is a `ConfigurationError`. -/
def SettingsFault.IsReported (fault : SettingsFault) : Prop :=
  ∃ report, fault.report? = some report ∧ report.kind = .configuration

/-- The reader fails with a fault that `IsReported`. -/
def Refuses {α : Type} (outcome : Except SettingsFault α) : Prop :=
  ∃ fault, outcome = .error fault ∧ fault.IsReported

/-- Every report about a failure is one about the settings. -/
theorem SettingsFault.isReported_iff {fault : SettingsFault} :
    fault.IsReported ↔ fault.report?.isSome = true := by
  cases fault <;> simp [IsReported, report?, Report.configuration]

section Reports

variable {α β : Type}

@[simp]
theorem refuses_error {fault : SettingsFault} :
    Refuses (.error fault : Except SettingsFault α) ↔ fault.IsReported := by
  simp [Refuses]

@[simp]
theorem not_refuses_ok {a : α} : ¬ Refuses (.ok a) := by
  simp [Refuses]

/-- Two steps have `Refuses` if the first does, or the second with what the first one gives. -/
theorem refuses_bind {x : Except SettingsFault α} {f : α → Except SettingsFault β} :
    Refuses (x >>= f) ↔ Refuses x ∨ ∃ a, x = .ok a ∧ Refuses (f a) := by
  cases x with
  | error fault => simp [bind, Except.bind]
  | ok a => simp [bind, Except.bind]

/-- A list is not refused if none of its items is. -/
theorem not_refuses_mapM {f : α → Except SettingsFault β} {xs : List α}
    (h : ∀ x ∈ xs, ¬ Refuses (f x)) : ¬ Refuses (xs.mapM f) := by
  induction xs with
  | nil => exact not_refuses_ok
  | cons x rest ih =>
      rw [List.mapM_cons, refuses_bind]
      rintro (hfirst | ⟨y, -, hmore⟩)
      · exact h x List.mem_cons_self hfirst
      · rcases refuses_bind.1 hmore with hrest | ⟨ys, -, hpure⟩
        · exact ih (fun z hz => h z (List.mem_cons_of_mem _ hz)) hrest
        · exact not_refuses_ok hpure

end Reports

/-! ## Sections and texts -/

namespace Value

/-- A section that is no mapping fails without a report. -/
theorem not_refuses_section? (value : Value) : ¬ Refuses value.section? := by
  rintro ⟨fault, herror, hreported⟩
  rw [section?_eq_error herror, SettingsFault.isReported_iff] at hreported
  cases hreported

theorem not_refuses_settingText (value : Value) : ¬ Refuses value.settingText := by
  unfold settingText
  cases value.isShowable with
  | false => simp [SettingsFault.isReported_iff, SettingsFault.report?]
  | true => simp

/-! ## Numbers -/

/-- The value's `toInteger` is a positive integer. -/
def IsPositive (value : Value) : Prop := ∃ n : Int, value.toInteger = .ok n ∧ 0 < n

/-- The value is not `IsPositive`, and this can be said: it is not infinite, and what would be shown
has a text. -/
def IsReportable (value : Value) : Prop :=
  (∃ n : Int, value.toInteger = .ok n ∧ n ≤ 0 ∧ (int n).isShowable = true) ∨
    ∃ fault, value.toInteger = .error fault ∧ fault ≠ .infinite ∧ value.isShowable = true

end Value

namespace InterpreterSettings

/-- A failure about a value is reported if the value has a text. -/
theorem isReported_failWith {shown : Value} {fault : SettingsFault} (h : fault.IsReported) :
    (failWith shown fault).IsReported ↔ shown.isShowable = true := by
  rw [failWith]
  cases shown.isShowable with
  | false => simp [SettingsFault.isReported_iff, SettingsFault.report?]
  | true => simpa using h

theorem refuses_positive?_iff {key : String} {default : Nat} {entries : List (Value × Value)} :
    Refuses (positive? key default entries) ↔
      (Value.givenOr key (.int default) entries).IsReportable := by
  unfold positive? Value.IsReportable
  rw [← Value.givenOr]
  cases hint : (Value.givenOr key (.int default) entries).toInteger with
  | error fault =>
      have hreported : ∀ value, (SettingsFault.notAnInteger key value fault).IsReported :=
        fun value => ⟨_, rfl, rfl⟩
      -- of the ways in which a value is no integer, only the infinite ones are not reported
      cases fault with
      | infinite => simp [hint, SettingsFault.isReported_iff, SettingsFault.report?]
      | kind _ => simp [hint, isReported_failWith (hreported _)]
      | literal _ _ => simp [hint, isReported_failWith (hreported _)]
      | nan => simp [hint, isReported_failWith (hreported _)]
  | ok n =>
      have hreported : (SettingsFault.notPositive key n).IsReported := ⟨_, rfl, rfl⟩
      simp only [hint]
      split
      · rename_i hpos
        have hnot : ¬ n ≤ 0 := by omega
        simp [hnot]
      · rename_i hpos
        have hle : n ≤ 0 := by omega
        simp [hle, isReported_failWith hreported]

theorem exists_positive?_iff {key : String} {default : Nat} {entries : List (Value × Value)} :
    (∃ n, positive? key default entries = .ok n) ↔
      (Value.givenOr key (.int default) entries).IsPositive := by
  constructor
  · rintro ⟨n, hn⟩
    exact ⟨n.1, positive?_eq_ok_iff.1 hn, by simpa using n.2⟩
  · rintro ⟨n, hn, hpos⟩
    refine ⟨⟨n.toNat, by omega⟩, positive?_eq_ok_iff.2 ?_⟩
    rw [Int.toNat_of_nonneg (Int.le_of_lt hpos)]
    exact hn

/-! ## Type words -/

/-- Every type word of `extra_types` is given a list. -/
def GivesLists (extra : List (Value × Value)) : Prop :=
  ∀ entry ∈ extra, ∃ items, entry.2.front = .list items

/-- Every type word of `extra_types` has a text, and so has every extension that is given for it. -/
def GivesTexts (extra : List (Value × Value)) : Prop :=
  ∀ entry ∈ extra, entry.1.isShowable = true ∧
    ∃ items, entry.2.items? = some items ∧ ∀ item ∈ items, item.isShowable = true

/-- Lists are given for the type words, no type word is lost, and every type word in `types` has the
texts of such a list in their order. -/
structure KeepsLists (types : List (String × List String)) (extra : List (Value × Value)) :
    Prop where
  given : GivesLists extra
  complete : ∀ entry ∈ extra, entry.1.plain ∈ types.map (·.1)
  kept : ∀ pair ∈ types, ∃ entry ∈ extra, entry.1.plain = pair.1 ∧
    ∃ items, entry.2.front = .list items ∧ pair.2 = items.map Value.plain

theorem refuses_extraEntries?_iff {entries : List (Value × Value)} :
    Refuses (extraEntries? entries) ↔
      (Settings.sectionOf "extra_types" entries).holds = true ∧
        ∀ extra, (Settings.sectionOf "extra_types" entries).front ≠ .map extra := by
  unfold extraEntries? Settings.sectionOf
  cases Value.find? "extra_types" entries with
  | none => simp [Value.front]
  | some value =>
      simp only [Option.getD_some]
      split
      · rename_i extra hfront
        simp [hfront]
      · rename_i hfront
        have hno : ∀ extra, value.front ≠ .map extra := hfront
        have hreported : SettingsFault.extraTypesNotMapping.IsReported := ⟨_, rfl, rfl⟩
        cases value.holds with
        | false => simp
        | true => simp [hno, hreported]

/-- Further type words that are no section are refused. -/
theorem extraEntries?_cases (entries : List (Value × Value)) :
    (∃ extra, extraEntries? entries = .ok extra) ∨ Refuses (extraEntries? entries) := by
  unfold extraEntries?
  split
  · exact Or.inl ⟨_, rfl⟩
  · split
    · exact Or.inl ⟨_, rfl⟩
    · split
      · exact Or.inr ⟨_, rfl, _, rfl, rfl⟩
      · exact Or.inl ⟨_, rfl⟩

/-- Nothing that is wrong with a type word is reported. -/
theorem not_refuses_extraTypes? (extra : List (Value × Value)) : ¬ Refuses (extraTypes? extra) := by
  have hentry : ∀ entry ∈ extra, ¬ Refuses (extraEntry entry) := by
    intro entry _
    unfold extraEntry
    -- the word is read first, then what is given for it
    rw [refuses_bind]
    rintro (hword | ⟨word, -, hitems⟩)
    · exact Value.not_refuses_settingText _ hword
    · split at hitems
      · rcases refuses_bind.1 hitems with htexts | ⟨texts, -, hpure⟩
        · exact not_refuses_mapM (fun item _ => Value.not_refuses_settingText item) htexts
        · exact not_refuses_ok hpure
      · simp [SettingsFault.isReported_iff, SettingsFault.report?] at hitems
  unfold extraTypes?
  rw [refuses_bind]
  rintro (hpairs | ⟨pairs, -, hpure⟩)
  · exact not_refuses_mapM hentry hpairs
  · exact not_refuses_ok hpure

/-- Type words are read by `extraTypes?` exactly if they have `GivesTexts`. -/
theorem exists_extraTypes?_iff {extra : List (Value × Value)} :
    (∃ types, extraTypes? extra = .ok types) ↔ GivesTexts extra := by
  have hentry : ∀ entry, (∃ pair, extraEntry entry = .ok pair) ↔ entry.1.isShowable = true ∧
      ∃ items, entry.2.items? = some items ∧ ∀ item ∈ items, item.isShowable = true := by
    intro entry
    simp only [extraEntry_eq_ok_iff]
    constructor
    · rintro ⟨pair, ⟨hword, -⟩, items, hitems, htexts, -⟩
      exact ⟨hword, items, hitems, htexts⟩
    · rintro ⟨hword, items, hitems, htexts⟩
      exact ⟨(entry.1.plain, items.map Value.plain), ⟨hword, rfl⟩, items, hitems, htexts, rfl⟩
  simp only [extraTypes?_eq_ok_iff, GivesTexts, ← hentry, ← exists_mapM_iff]
  constructor
  · rintro ⟨_, pairs, hpairs, -⟩
    exact ⟨pairs, hpairs⟩
  · rintro ⟨pairs, hpairs⟩
    exact ⟨_, pairs, hpairs, rfl⟩

/-- Lists that are given are kept. -/
theorem keepsLists_of_givesLists {extra : List (Value × Value)}
    {types : List (String × List String)} (hlists : GivesLists extra)
    (h : extraTypes? extra = .ok types) : KeepsLists types extra where
  given := hlists
  complete := by
    obtain ⟨pairs, hpairs, rfl⟩ := extraTypes?_eq_ok_iff.1 h
    intro entry hentry
    obtain ⟨pair, hpair, hread⟩ := exists_of_mem_mapM hpairs hentry
    obtain ⟨⟨-, hword⟩, -⟩ := extraEntry_eq_ok_iff.1 hread
    rw [hword]
    exact mem_map_fst_setEntries.2 (Or.inl (List.mem_map_of_mem hpair))
  kept := by
    obtain ⟨pairs, hpairs, rfl⟩ := extraTypes?_eq_ok_iff.1 h
    intro pair hpair
    have hmem : pair ∈ pairs := by simpa using mem_setEntries hpair
    obtain ⟨entry, hentry, hread⟩ := exists_mem_of_mapM hpairs hmem
    obtain ⟨⟨-, hword⟩, items, hitems, -, htexts⟩ := extraEntry_eq_ok_iff.1 hread
    -- what was gone through is the list that was given
    obtain ⟨given, hgiven⟩ := hlists entry hentry
    obtain rfl : given = items := by simpa [Value.items?, hgiven] using hitems
    exact ⟨entry, hentry, hword, given, hgiven, htexts.symm⟩

/-! ## The section of the interpreter -/

/-- The first thing that is wrong with the section is one that is reported: `extra_types` is no
mapping, or a number `IsReportable` while the ones before it are fine. -/
inductive IsRefusable (entries : List (Value × Value)) : Prop
  | extraTypes (hholds : (Settings.sectionOf "extra_types" entries).holds = true)
      (hno : ∀ extra, (Settings.sectionOf "extra_types" entries).front ≠ .map extra)
  | recent (h : (Value.givenOr "recent_limit" (.int 10) entries).IsReportable)
  | large (hrecent : (Value.givenOr "recent_limit" (.int 10) entries).IsPositive)
      (h : (Value.givenOr "large_file_bytes" (.int 5242880) entries).IsReportable)
  | small (hrecent : (Value.givenOr "recent_limit" (.int 10) entries).IsPositive)
      (hlarge : (Value.givenOr "large_file_bytes" (.int 5242880) entries).IsPositive)
      (h : (Value.givenOr "small_file_bytes" (.int 1048576) entries).IsReportable)

/-- Nothing is wrong with the section, and every type word is given a list. -/
structure IsWellFormed (entries : List (Value × Value)) : Prop where
  recent : (Value.givenOr "recent_limit" (.int 10) entries).IsPositive
  large : (Value.givenOr "large_file_bytes" (.int 5242880) entries).IsPositive
  small : (Value.givenOr "small_file_bytes" (.int 1048576) entries).IsPositive
  extra : ∃ extra, (Settings.sectionOf "extra_types" entries).section? = .ok extra ∧
    GivesLists extra ∧ GivesTexts extra

theorem refuses_ofValue_iff {value : Value} :
    Refuses (ofValue value) ↔ ∃ entries, value.section? = .ok entries ∧ IsRefusable entries := by
  simp only [ofValue, refuses_bind, Value.not_refuses_section?, refuses_extraEntries?_iff,
    refuses_positive?_iff, not_refuses_extraTypes?, pure, Except.pure, not_refuses_ok, and_false,
    exists_false, or_false, false_or]
  refine exists_congr fun entries => and_congr_right fun _ => ?_
  constructor
  · rintro (⟨hholds, hno⟩ | ⟨_, -, hrecent | ⟨recent, hrecent, hlarge | ⟨large, hlarge, hsmall⟩⟩⟩)
    · exact .extraTypes hholds hno
    · exact .recent hrecent
    · exact .large (exists_positive?_iff.1 ⟨recent, hrecent⟩) hlarge
    · exact .small (exists_positive?_iff.1 ⟨recent, hrecent⟩)
        (exists_positive?_iff.1 ⟨large, hlarge⟩) hsmall
  · intro h
    -- the type words are looked at first, so the numbers count only if these are a section
    rcases extraEntries?_cases entries with ⟨extra, hextra⟩ | hrefuses
    · cases h with
      | extraTypes hholds hno => exact Or.inl ⟨hholds, hno⟩
      | recent h => exact Or.inr ⟨extra, hextra, Or.inl h⟩
      | large hrecent h =>
          obtain ⟨recent, hrecent⟩ := exists_positive?_iff.2 hrecent
          exact Or.inr ⟨extra, hextra, Or.inr ⟨recent, hrecent, Or.inl h⟩⟩
      | small hrecent hlarge h =>
          obtain ⟨recent, hrecent⟩ := exists_positive?_iff.2 hrecent
          obtain ⟨large, hlarge⟩ := exists_positive?_iff.2 hlarge
          exact Or.inr ⟨extra, hextra, Or.inr ⟨recent, hrecent, Or.inr ⟨large, hlarge, h⟩⟩⟩
    · exact Or.inl (refuses_extraEntries?_iff.1 hrefuses)

/-- The lists that are given under the type words of the section are kept. -/
def KeepsGiven (s : InterpreterSettings) (entries : List (Value × Value)) : Prop :=
  ∃ extra, (Settings.sectionOf "extra_types" entries).section? = .ok extra ∧
    KeepsLists s.extraTypes extra

theorem IsWellFormed.exists_ofValue {value : Value} {entries : List (Value × Value)}
    (hentries : value.section? = .ok entries) (h : IsWellFormed entries) :
    ∃ s, ofValue value = .ok s ∧ s.KeepsGiven entries := by
  obtain ⟨recent, hrecent⟩ := exists_positive?_iff.2 h.recent
  obtain ⟨large, hlarge⟩ := exists_positive?_iff.2 h.large
  obtain ⟨small, hsmall⟩ := exists_positive?_iff.2 h.small
  obtain ⟨extra, hextra, hlists, htexts⟩ := h.extra
  obtain ⟨types, htypes⟩ := exists_extraTypes?_iff.2 htexts
  refine ⟨⟨recent.1, large.1, small.1, types, recent.2, large.2, small.2⟩,
    ofValue_eq_ok_iff.2 ⟨entries, hentries, ?_⟩, extra, hextra,
    keepsLists_of_givesLists hlists htypes⟩
  exact {
    recent := positive?_eq_ok_iff.1 hrecent
    large := positive?_eq_ok_iff.1 hlarge
    small := positive?_eq_ok_iff.1 hsmall
    extra := ⟨extra, extraEntries?_eq_ok_iff.2 hextra, htypes⟩ }

theorem ReadFrom.isWellFormed {s : InterpreterSettings} {entries : List (Value × Value)}
    (h : s.ReadFrom entries) (hkeeps : s.KeepsGiven entries) : IsWellFormed entries where
  recent := ⟨_, h.recent, by exact_mod_cast s.recentLimit_pos⟩
  large := ⟨_, h.large, by exact_mod_cast s.largeBytes_pos⟩
  small := ⟨_, h.small, by exact_mod_cast s.smallBytes_pos⟩
  extra := by
    obtain ⟨extra, hextra, hlists⟩ := hkeeps
    obtain ⟨extra', hextra', htypes⟩ := h.extra
    rw [extraEntries?_eq_ok_iff, hextra, Except.ok.injEq] at hextra'
    subst hextra'
    exact ⟨extra, hextra, hlists.given, exists_extraTypes?_iff.1 ⟨_, htypes⟩⟩

end InterpreterSettings

/-! ## The sections of the scanner and the log -/

/-- What is given as patterns can be gone through. -/
def ScannerSettings.IsWellFormed (entries : List (Value × Value)) : Prop :=
  (Value.givenOr "ignore_patterns" (.list standardPatterns) entries).items?.isSome = true

theorem ScannerSettings.exists_ofValue_iff {value : Value} :
    (∃ s, ofValue value = .ok s) ↔
      ∃ entries, value.section? = .ok entries ∧ IsWellFormed entries := by
  simp only [ofValue_eq_ok_iff, IsWellFormed, Option.isSome_iff_exists]
  constructor
  · rintro ⟨s, entries, hentries, hitems, -, -⟩
    exact ⟨entries, hentries, _, hitems⟩
  · rintro ⟨entries, hentries, items, hitems⟩
    exact ⟨⟨items, _, _⟩, entries, hentries, hitems, rfl, rfl⟩

/-- Nothing that is wrong with the scanner is reported. -/
theorem ScannerSettings.not_refuses_ofValue (value : Value) : ¬ Refuses (ofValue value) := by
  unfold ofValue
  rw [refuses_bind]
  rintro (hsection | ⟨entries, -, hitems⟩)
  · exact value.not_refuses_section? hsection
  · dsimp only at hitems
    split at hitems
    · simp [SettingsFault.isReported_iff, SettingsFault.report?] at hitems
    · exact not_refuses_ok hitems

namespace LoggingSettings

/-- Nothing is wrong with the section: the level has a text, a directory that is given is a text
whose tilde can be replaced, and the two numbers are integers. -/
structure IsWellFormed (homes : Homes) (entries : List (Value × Value)) : Prop where
  level : (Value.givenOr "level" (.text (standard homes.own).level) entries).isShowable = true
  directory : ∀ value, Value.find? "log_dir" entries = some value → value.holds = true →
    ∃ s, value = .text s ∧ ((Path.ofText s).expandHome homes).isSome = true
  maxFileSize : ∃ n, (Value.givenOr "max_file_size" (.int (standard homes.own).maxFileSize)
    entries).toInteger = .ok n
  backupCount : ∃ n, (Value.givenOr "backup_count" (.int (standard homes.own).backupCount)
    entries).toInteger = .ok n

theorem exists_directory?_iff {homes : Homes} {value : Option Value} :
    (∃ path, directory? homes value = .ok path) ↔ ∀ v, value = some v → v.holds = true →
      ∃ s, v = .text s ∧ ((Path.ofText s).expandHome homes).isSome = true := by
  cases value with
  | none => simp [directory?]
  | some v =>
      simp only [Option.some.injEq, forall_eq', directory?]
      cases v.holds with
      | false => simp
      | true =>
          cases v with
          | text s => cases hexpand : (Path.ofText s).expandHome homes <;> simp [hexpand]
          | _ => simp

theorem exists_ofValue_iff {homes : Homes} {value : Value} :
    (∃ s, ofValue homes value = .ok s) ↔
      ∃ entries, value.section? = .ok entries ∧ IsWellFormed homes entries := by
  simp only [ofValue_eq_ok_iff]
  constructor
  · rintro ⟨s, entries, hentries, h⟩
    exact ⟨entries, hentries, {
      level := (Value.settingText_eq_ok_iff.1 h.level).1
      directory := exists_directory?_iff.1 ⟨_, h.directory⟩
      maxFileSize := ⟨_, h.maxFileSize⟩
      backupCount := ⟨_, h.backupCount⟩ }⟩
  · rintro ⟨entries, hentries, h⟩
    obtain ⟨directory, hdirectory⟩ := exists_directory?_iff.2 h.directory
    obtain ⟨size, hsize⟩ := h.maxFileSize
    obtain ⟨count, hcount⟩ := h.backupCount
    exact ⟨⟨_, directory, _, _, _, size, count⟩, entries, hentries, {
      level := Value.settingText_eq_ok_iff.2 ⟨h.level, rfl⟩
      directory := hdirectory
      consoleOutput := rfl
      fileOutput := rfl
      jsonFormat := rfl
      maxFileSize := hsize
      backupCount := hcount }⟩

theorem not_refuses_integer? {key : String} {default : Int} {entries : List (Value × Value)} :
    ¬ Refuses (integer? key default entries) := by
  unfold integer?
  cases ((Value.find? key entries).getD (.int default)).toInteger with
  | error fault => simp [Except.mapError, SettingsFault.isReported_iff, SettingsFault.report?]
  | ok n => simp [Except.mapError]

theorem not_refuses_directory? {homes : Homes} {value : Option Value} :
    ¬ Refuses (directory? homes value) := by
  unfold directory?
  split
  · exact not_refuses_ok
  · split
    · exact not_refuses_ok
    · split
      · split
        · exact not_refuses_ok
        · simp [SettingsFault.isReported_iff, SettingsFault.report?]
      · simp [SettingsFault.isReported_iff, SettingsFault.report?]
      · simp [SettingsFault.isReported_iff, SettingsFault.report?]

/-- Nothing that is wrong with the log is reported. -/
theorem not_refuses_ofValue (homes : Homes) (value : Value) : ¬ Refuses (ofValue homes value) := by
  simp [ofValue, refuses_bind, Value.not_refuses_section?, Value.not_refuses_settingText,
    not_refuses_directory?, not_refuses_integer?, pure, Except.pure]

end LoggingSettings

/-! ## All settings -/

namespace Settings

/-- The outcome of reading the mapping is as it should be: it `Refuses`, or the numbers are positive
and the lists that are given under type words are kept. -/
def Settled (entries : List (Value × Value)) (outcome : Except SettingsFault Settings) : Prop :=
  Refuses outcome ∨ ∃ s : Settings, outcome = .ok s ∧
    (0 < s.interpreter.recentLimit ∧ 0 < s.interpreter.largeBytes ∧ 0 < s.interpreter.smallBytes) ∧
    ∃ words, (sectionOf "interpreter" entries).section? = .ok words ∧ s.interpreter.KeepsGiven words

/-- The first thing that is wrong with the mapping is reported: its section `interpreter` has
`InterpreterSettings.IsRefusable`. -/
def IsRefusable (entries : List (Value × Value)) : Prop :=
  ∃ words, (sectionOf "interpreter" entries).section? = .ok words ∧
    InterpreterSettings.IsRefusable words

/-- Nothing is wrong with any section of the mapping. -/
structure IsWellFormed (homes : Homes) (entries : List (Value × Value)) : Prop where
  interpreter : ∃ words, (sectionOf "interpreter" entries).section? = .ok words ∧
    InterpreterSettings.IsWellFormed words
  scanner : ∃ scan, (sectionOf "scanner" entries).section? = .ok scan ∧
    ScannerSettings.IsWellFormed scan
  logging : ∃ log, (sectionOf "logging" entries).section? = .ok log ∧
    LoggingSettings.IsWellFormed homes log

theorem refuses_ofValue_iff {homes : Homes} {data : Value} {entries : List (Value × Value)}
    (h : data.front = .map entries) : Refuses (ofValue homes data) ↔ IsRefusable entries := by
  simp only [ofValue, h, refuses_bind, InterpreterSettings.refuses_ofValue_iff,
    ScannerSettings.not_refuses_ofValue, LoggingSettings.not_refuses_ofValue, pure, Except.pure,
    not_refuses_ok, and_false, exists_false, or_false, IsRefusable]

/-- The outcome of `ofValue` is `Settled` exactly if the mapping `IsRefusable` or `IsWellFormed`. -/
theorem settled_ofValue_iff {homes : Homes} {data : Value} {entries : List (Value × Value)}
    (h : data.front = .map entries) :
    Settled entries (ofValue homes data) ↔ IsRefusable entries ∨ IsWellFormed homes entries := by
  rw [Settled, refuses_ofValue_iff h]
  -- what is left is that a mapping is read and its lists are kept exactly if nothing is wrong
  refine or_congr_right ?_
  constructor
  · rintro ⟨s, hread, -, words, hwords, hkeeps⟩
    obtain ⟨entries', hentries', hinterpreter, hscanner, hlogging⟩ := ofValue_eq_ok_iff.1 hread
    obtain rfl : entries = entries' := by simpa [h] using hentries'
    obtain ⟨words', hwords', hreadFrom⟩ := InterpreterSettings.ofValue_eq_ok_iff.1 hinterpreter
    obtain rfl : words = words' := by simpa [hwords] using hwords'
    exact {
      interpreter := ⟨words, hwords, hreadFrom.isWellFormed hkeeps⟩
      scanner := ScannerSettings.exists_ofValue_iff.1 ⟨_, hscanner⟩
      logging := LoggingSettings.exists_ofValue_iff.1 ⟨_, hlogging⟩ }
  · rintro ⟨⟨words, hwords, hwell⟩, hscanner, hlogging⟩
    obtain ⟨interpreter, hinterpreter, hkeeps⟩ := hwell.exists_ofValue hwords
    obtain ⟨scanner, hscanner⟩ := ScannerSettings.exists_ofValue_iff.2 hscanner
    obtain ⟨logging, hlogging⟩ := LoggingSettings.exists_ofValue_iff.2 hlogging
    exact ⟨⟨interpreter, scanner, logging⟩,
      ofValue_eq_ok_iff.2 ⟨entries, h, hinterpreter, hscanner, hlogging⟩,
      ⟨interpreter.recentLimit_pos, interpreter.largeBytes_pos, interpreter.smallBytes_pos⟩,
      words, hwords, hkeeps⟩

/-- A mapping whose first number is zero. -/
def zeroSample : List (Value × Value) :=
  [(.text "interpreter", .map [(.text "recent_limit", .int 0)])]

theorem settled_ofValue_zeroSample : (Value.map zeroSample).front = .map zeroSample ∧
    Settled zeroSample (ofValue (.only (.ofText "/home/oracle")) (.map zeroSample)) := by
  have hreportable : (Value.int 0).IsReportable :=
    Or.inl ⟨0, rfl, Int.le_refl 0, by decide +kernel⟩
  have hrefusable : IsRefusable zeroSample := ⟨_, rfl, .recent hreportable⟩
  exact ⟨rfl, (settled_ofValue_iff rfl).2 (Or.inl hrefusable)⟩

/-- A mapping whose first number is infinite. -/
def infiniteSample : List (Value × Value) :=
  [(.text "interpreter", .map [(.text "recent_limit", .float (.infinite false))])]

/-- A mapping that gives a text for a type word. -/
def spelledSample : List (Value × Value) :=
  [(.text "interpreter", .map [(.text "extra_types", .map [(.text "note", .text "pdf")])])]

/-- The number `.inf` fails without a report, and the text `pdf` under a type word is kept as the
list of its characters. -/
theorem not_always_settled :
    ¬ Settled infiniteSample (ofValue (.only (.ofText "/home/oracle")) (.map infiniteSample)) ∧
      ¬ Settled spelledSample (ofValue (.only (.ofText "/home/oracle")) (.map spelledSample)) := by
  constructor
  · have hread : ofValue (.only (.ofText "/home/oracle")) (.map infiniteSample) =
        .error (.integer .infinite) := rfl
    rw [hread]
    rintro (⟨fault, hfault, report, hreport, -⟩ | ⟨s, hs, -⟩)
    · cases hfault
      cases hreport
    · cases hs
  · -- the settings are read, and what was given for the word is a text
    rintro (hrefuses | ⟨s, -, -, words, hwords, extra, hextra, hkeeps⟩)
    · obtain ⟨fault, hfault, -⟩ := hrefuses
      have hread : (ofValue (.only (.ofText "/home/oracle"))
          (.map spelledSample)).toOption.isSome = true := by decide +kernel
      rw [hfault] at hread
      cases hread
    · cases hwords
      cases hextra
      obtain ⟨items, hitems⟩ := hkeeps.given _ List.mem_cons_self
      cases hitems

end Settings

end FileClerk
