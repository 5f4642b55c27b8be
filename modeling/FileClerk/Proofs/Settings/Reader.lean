import Mathlib.Data.List.Forall2
import FileClerk.Proofs.Catalogue
import FileClerk.Settings.Basic

/-!
# What settings are read from

The readers of settings take values of any shape. For each reader this module says which values it
accepts and what it makes of them: a section is a mapping or an empty value, a number is a value
that stands for an integer, a text is a value that can be shown, and the further type words are the
texts of keys and items, of which a later one replaces an earlier one. The reader of all settings
accepts a mapping when its three sections are accepted (`Settings.ofValue_eq_ok_iff`).
-/

set_option autoImplicit false

namespace FileClerk

/-! ## Steps that may fail -/

section Steps

variable {ε α β : Type}

/-- Two steps `x >>= f` succeed if the first does and the second does with what the first one gives.
-/
theorem bind_eq_ok_iff {x : Except ε α} {f : α → Except ε β} {b : β} :
    x >>= f = .ok b ↔ ∃ a, x = .ok a ∧ f a = .ok b := by
  cases x with
  | error fault => simp [bind, Except.bind]
  | ok a => simp [bind, Except.bind]

/-- A list is read by `mapM f` when each of its items is. -/
theorem mapM_eq_ok_iff {f : α → Except ε β} {xs : List α} {ys : List β} :
    xs.mapM f = .ok ys ↔ List.Forall₂ (fun x y => f x = .ok y) xs ys := by
  induction xs generalizing ys with
  | nil => simp [pure, Except.pure, eq_comm]
  | cons x rest ih =>
      rw [List.mapM_cons, bind_eq_ok_iff, List.forall₂_cons_left_iff]
      simp only [bind_eq_ok_iff, ih, pure, Except.pure, Except.ok.injEq]
      constructor
      · rintro ⟨y, hy, zs, hzs, rfl⟩
        exact ⟨y, zs, hy, hzs, rfl⟩
      · rintro ⟨y, zs, hy, hzs, rfl⟩
        exact ⟨y, hy, zs, hzs, rfl⟩

/-- What is read for a list is read from one of its items. -/
theorem exists_mem_of_mapM {f : α → Except ε β} {xs : List α} {ys : List β}
    (h : xs.mapM f = .ok ys) {y : β} (hy : y ∈ ys) : ∃ x ∈ xs, f x = .ok y := by
  have hall := mapM_eq_ok_iff.1 h
  clear h
  induction hall with
  | nil => cases hy
  | @cons x y' rest more hfirst _ ih =>
      rcases List.mem_cons.1 hy with rfl | hmore
      · exact ⟨x, List.mem_cons_self, hfirst⟩
      · obtain ⟨x', hx', hread⟩ := ih hmore
        exact ⟨x', List.mem_cons_of_mem _ hx', hread⟩

/-- What is read from an item of a list is read for the list. -/
theorem exists_of_mem_mapM {f : α → Except ε β} {xs : List α} {ys : List β}
    (h : xs.mapM f = .ok ys) {x : α} (hx : x ∈ xs) : ∃ y ∈ ys, f x = .ok y := by
  have hall := mapM_eq_ok_iff.1 h
  clear h
  induction hall with
  | nil => cases hx
  | @cons x' y rest more hfirst _ ih =>
      rcases List.mem_cons.1 hx with rfl | hrest
      · exact ⟨y, List.mem_cons_self, hfirst⟩
      · obtain ⟨y', hy', hread⟩ := ih hrest
        exact ⟨y', List.mem_cons_of_mem _ hy', hread⟩

/-- A list can be read if each of its items can be. -/
theorem exists_mapM_iff {f : α → Except ε β} {xs : List α} :
    (∃ ys, xs.mapM f = .ok ys) ↔ ∀ x ∈ xs, ∃ y, f x = .ok y := by
  simp only [mapM_eq_ok_iff]
  induction xs with
  | nil => simp
  | cons x rest ih =>
      simp only [List.forall₂_cons_left_iff, List.forall_mem_cons, ← ih]
      constructor
      · rintro ⟨_, y, ys, hy, hys, rfl⟩
        exact ⟨⟨y, hy⟩, ys, hys⟩
      · rintro ⟨⟨y, hy⟩, ys, hys⟩
        exact ⟨y :: ys, y, ys, hy, hys, rfl⟩

end Steps

/-! ## Sections and texts -/

/-- The value under `key`, or `default` without one, as `.get` gives it. -/
def Value.givenOr (key : String) (default : Value) (entries : List (Value × Value)) : Value :=
  (find? key entries).getD default

/-- The one failure of `section?` is `noSection`. -/
theorem Value.section?_eq_error {value : Value} {fault : SettingsFault}
    (h : value.section? = .error fault) : fault = .noSection value.kindName := by
  unfold section? at h
  split at h
  · cases h
  · split at h
    · cases h
      rfl
    · cases h

/-- A value is taken as a text by `settingText` if it `isShowable`. -/
theorem Value.settingText_eq_ok_iff {value : Value} {s : String} :
    value.settingText = .ok s ↔ value.isShowable = true ∧ value.plain = s := by
  unfold settingText
  cases value.isShowable with
  | false => simp
  | true => simp

/-- Values are taken as their texts if all of them can be shown. -/
theorem Value.mapM_settingText_eq_ok_iff {items : List Value} {texts : List String} :
    items.mapM settingText = .ok texts ↔
      (∀ item ∈ items, item.isShowable = true) ∧ items.map plain = texts := by
  simp only [mapM_eq_ok_iff, settingText_eq_ok_iff, List.forall₂_and_left]
  rw [← List.forall₂_eq_eq_eq, List.forall₂_map_left_iff]

/-! ## The interpreter -/

namespace InterpreterSettings

/-- The reader `positive?` takes a value whose `toInteger` is a positive integer. -/
theorem positive?_eq_ok_iff {key : String} {default : Nat} {entries : List (Value × Value)}
    {n : { n : Nat // 0 < n }} :
    positive? key default entries = .ok n ↔
      (Value.givenOr key (.int default) entries).toInteger = .ok (n.1 : Int) := by
  obtain ⟨n, hn⟩ := n
  unfold positive?
  rw [← Value.givenOr]
  cases hint : (Value.givenOr key (.int default) entries).toInteger with
  | error fault => cases fault <;> simp [hint]
  | ok m =>
      simp only [hint]
      split
      · rename_i hpos
        rw [Except.ok.injEq, Except.ok.injEq, Subtype.mk.injEq]
        omega
      · rename_i hpos
        -- an integer that is refused is not the one that was asked for, which is positive
        simp only [reduceCtorEq, Except.ok.injEq, false_iff]
        rintro rfl
        exact hpos (by simpa using hn)

/-- The further type words are a section of their own. -/
theorem extraEntries?_eq_ok_iff {entries extra : List (Value × Value)} :
    extraEntries? entries = .ok extra ↔
      (Settings.sectionOf "extra_types" entries).section? = .ok extra := by
  unfold extraEntries? Settings.sectionOf
  cases Value.find? "extra_types" entries with
  | none => simp [Value.section?, Value.front]
  | some value =>
      simp only [Option.getD_some, Value.section?]
      split
      · rfl
      · split
        · simp
        · rfl

/-- A further type word is the text of a key of `extra_types`, and its extensions are the texts of
the items that are given under the key. -/
theorem extraEntry_eq_ok_iff {entry : Value × Value} {pair : String × List String} :
    extraEntry entry = .ok pair ↔
      (entry.1.isShowable = true ∧ entry.1.plain = pair.1) ∧
      ∃ items, entry.2.items? = some items ∧
        (∀ item ∈ items, item.isShowable = true) ∧ items.map Value.plain = pair.2 := by
  obtain ⟨word, extensions⟩ := pair
  unfold extraEntry
  rw [bind_eq_ok_iff]
  cases entry.2.items? with
  | none => simp
  | some items =>
      simp only [bind_eq_ok_iff, Value.settingText_eq_ok_iff, Value.mapM_settingText_eq_ok_iff,
        pure, Except.pure, Except.ok.injEq, Prod.mk.injEq, Option.some.injEq, exists_eq_left']
      constructor
      · rintro ⟨_, ⟨hword, rfl⟩, _, ⟨htexts, rfl⟩, rfl, rfl⟩
        exact ⟨⟨hword, rfl⟩, htexts, rfl⟩
      · rintro ⟨⟨hword, rfl⟩, htexts, rfl⟩
        exact ⟨_, ⟨hword, rfl⟩, _, ⟨htexts, rfl⟩, rfl, rfl⟩

/-- The entries with each pair of `pairs` set in turn. -/
def setEntries (pairs : List (String × List String)) (entries : List (String × List String)) :
    List (String × List String) :=
  pairs.foldl (fun acc (word, extensions) => Catalogue.setEntry word extensions acc) entries

/-- Every entry is one of the pairs that were set, or one that was there. -/
theorem mem_setEntries {pairs entries : List (String × List String)} {entry : String × List String}
    (h : entry ∈ setEntries pairs entries) : entry ∈ pairs ∨ entry ∈ entries := by
  induction pairs generalizing entries with
  | nil => exact Or.inr h
  | cons pair rest ih =>
      rcases ih h with hrest | hset
      · exact Or.inl (List.mem_cons_of_mem _ hrest)
      · -- the rest is set in the entries that the first pair has been set in
        rcases Catalogue.mem_setEntry hset with rfl | hentries
        · exact Or.inl List.mem_cons_self
        · exact Or.inr hentries

/-- The words are those that were set and those that were there. -/
theorem mem_map_fst_setEntries {pairs entries : List (String × List String)} {word : String} :
    word ∈ (setEntries pairs entries).map (·.1) ↔
      word ∈ pairs.map (·.1) ∨ word ∈ entries.map (·.1) := by
  induction pairs generalizing entries with
  | nil => simp [setEntries]
  | cons pair rest ih =>
      calc word ∈ (setEntries (pair :: rest) entries).map (·.1)
          ↔ word ∈ (setEntries rest (Catalogue.setEntry pair.1 pair.2 entries)).map (·.1) := Iff.rfl
        _ ↔ word ∈ rest.map (·.1) ∨ word = pair.1 ∨ word ∈ entries.map (·.1) := by
            rw [ih, Catalogue.mem_map_fst_setEntry]
        _ ↔ word ∈ (pair :: rest).map (·.1) ∨ word ∈ entries.map (·.1) := by
            rw [List.map_cons, List.mem_cons, or_assoc, or_left_comm]

/-- The reader `extraTypes?` sets the pairs one after another. -/
theorem extraTypes?_eq_ok_iff {extra : List (Value × Value)} {types : List (String × List String)} :
    extraTypes? extra = .ok types ↔
      ∃ pairs, extra.mapM extraEntry = .ok pairs ∧ setEntries pairs [] = types := by
  unfold extraTypes?
  simp only [bind_eq_ok_iff, pure, Except.pure, Except.ok.injEq, setEntries]

/-- The section holds the settings: the numbers and the further type words are read from it. -/
structure ReadFrom (s : InterpreterSettings) (entries : List (Value × Value)) : Prop where
  recent : (Value.givenOr "recent_limit" (.int 10) entries).toInteger = .ok (s.recentLimit : Int)
  large : (Value.givenOr "large_file_bytes" (.int 5242880) entries).toInteger =
    .ok (s.largeBytes : Int)
  small : (Value.givenOr "small_file_bytes" (.int 1048576) entries).toInteger =
    .ok (s.smallBytes : Int)
  extra : ∃ extra, extraEntries? entries = .ok extra ∧ extraTypes? extra = .ok s.extraTypes

theorem ofValue_eq_ok_iff {value : Value} {s : InterpreterSettings} :
    ofValue value = .ok s ↔ ∃ entries, value.section? = .ok entries ∧ s.ReadFrom entries := by
  simp only [ofValue, bind_eq_ok_iff, pure, Except.pure, Except.ok.injEq]
  constructor
  · rintro ⟨entries, hentries, extra, hextra, recent, hrecent, large, hlarge, small, hsmall, types,
      htypes, rfl⟩
    exact ⟨entries, hentries, {
      recent := positive?_eq_ok_iff.1 hrecent
      large := positive?_eq_ok_iff.1 hlarge
      small := positive?_eq_ok_iff.1 hsmall
      extra := ⟨extra, hextra, htypes⟩ }⟩
  · rintro ⟨entries, hentries, hrecent, hlarge, hsmall, extra, hextra, htypes⟩
    exact ⟨entries, hentries, extra, hextra,
      ⟨_, s.recentLimit_pos⟩, positive?_eq_ok_iff.2 hrecent,
      ⟨_, s.largeBytes_pos⟩, positive?_eq_ok_iff.2 hlarge,
      ⟨_, s.smallBytes_pos⟩, positive?_eq_ok_iff.2 hsmall, s.extraTypes, htypes, rfl⟩

end InterpreterSettings

/-! ## The scanner and the log -/

theorem ScannerSettings.ofValue_eq_ok_iff {value : Value} {s : ScannerSettings} :
    ofValue value = .ok s ↔ ∃ entries, value.section? = .ok entries ∧
      (Value.givenOr "ignore_patterns" (.list standardPatterns) entries).items? =
        some s.ignorePatterns ∧
      s.intoSubdirectories = Value.flag "recursive" false entries ∧
      s.includeHidden = Value.flag "include_hidden" false entries := by
  obtain ⟨patterns, into, hidden⟩ := s
  simp only [ofValue, bind_eq_ok_iff]
  refine exists_congr fun entries => and_congr_right fun _ => ?_
  rw [← Value.givenOr]
  cases hitems : (Value.givenOr "ignore_patterns" (.list standardPatterns) entries).items? with
  | none => simp
  | some items => simp [pure, Except.pure, eq_comm]

namespace LoggingSettings

theorem integer?_eq_ok_iff {key : String} {default n : Int} {entries : List (Value × Value)} :
    integer? key default entries = .ok n ↔
      (Value.givenOr key (.int default) entries).toInteger = .ok n := by
  unfold integer?
  rw [← Value.givenOr]
  cases (Value.givenOr key (.int default) entries).toInteger with
  | error fault => simp [Except.mapError]
  | ok m => simp [Except.mapError]

/-- The section holds the settings of the log. -/
structure ReadFrom (homes : Homes) (s : LoggingSettings) (entries : List (Value × Value)) :
    Prop where
  level : (Value.givenOr "level" (.text (standard homes.own).level) entries).settingText =
    .ok s.level
  directory : directory? homes (Value.find? "log_dir" entries) = .ok s.directory
  consoleOutput : s.consoleOutput =
    Value.flag "console_output" (standard homes.own).consoleOutput entries
  fileOutput : s.fileOutput = Value.flag "file_output" (standard homes.own).fileOutput entries
  jsonFormat : s.jsonFormat = Value.flag "json_format" (standard homes.own).jsonFormat entries
  maxFileSize : (Value.givenOr "max_file_size" (.int (standard homes.own).maxFileSize)
    entries).toInteger = .ok s.maxFileSize
  backupCount : (Value.givenOr "backup_count" (.int (standard homes.own).backupCount)
    entries).toInteger = .ok s.backupCount

theorem ofValue_eq_ok_iff {homes : Homes} {value : Value} {s : LoggingSettings} :
    ofValue homes value = .ok s ↔ ∃ entries, value.section? = .ok entries ∧
      s.ReadFrom homes entries := by
  simp only [ofValue, bind_eq_ok_iff, integer?_eq_ok_iff, pure, Except.pure, Except.ok.injEq]
  constructor
  · rintro ⟨entries, hentries, level, hlevel, directory, hdirectory, size, hsize, count, hcount,
      rfl⟩
    exact ⟨entries, hentries, {
      level := hlevel
      directory := hdirectory
      consoleOutput := rfl
      fileOutput := rfl
      jsonFormat := rfl
      maxFileSize := hsize
      backupCount := hcount }⟩
  · rintro ⟨entries, hentries, h⟩
    refine ⟨entries, hentries, s.level, h.level, s.directory, h.directory, s.maxFileSize,
      h.maxFileSize, s.backupCount, h.backupCount, ?_⟩
    rw [← h.consoleOutput, ← h.fileOutput, ← h.jsonFormat]

end LoggingSettings

/-! ## All settings -/

/-- Settings are read from a mapping whose sections `interpreter`, `scanner` and `logging` are read.
-/
theorem Settings.ofValue_eq_ok_iff {homes : Homes} {value : Value} {s : Settings} :
    ofValue homes value = .ok s ↔ ∃ entries, value.front = .map entries ∧
      InterpreterSettings.ofValue (sectionOf "interpreter" entries) = .ok s.interpreter ∧
      ScannerSettings.ofValue (sectionOf "scanner" entries) = .ok s.scanner ∧
      LoggingSettings.ofValue homes (sectionOf "logging" entries) = .ok s.logging := by
  obtain ⟨interpreter, scanner, logging⟩ := s
  unfold ofValue
  split
  · rename_i entries hfront
    simp [hfront, bind_eq_ok_iff, pure, Except.pure]
  · rename_i hfront
    simp only [reduceCtorEq, false_iff, not_exists, not_and]
    intro entries hentries
    exact absurd hentries (hfront entries)

end FileClerk
