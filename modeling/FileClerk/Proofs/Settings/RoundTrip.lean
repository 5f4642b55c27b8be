import FileClerk.Proofs.Path
import FileClerk.Proofs.Settings.Reader
import FileClerk.Proofs.Value
import FileClerk.Settings.Basic

/-!
# Saving and loading settings

Settings that are read from any value are written as a mapping from which the same settings are read
again (`Settings.ofDocument_toValue`). Every reader puts a value into a normal form, and the normal
form is read as it is: a number as a number, an empty list of patterns as an empty list and not as
an absent one, a directory as a text whose tilde has been replaced.

Not all settings that can be built have this property. No two of the further type words may be
equal, and the directory must be one that its text denotes (`Settings.IsWritable`); both hold of
settings that have been read.
-/

set_option autoImplicit false

namespace FileClerk

/-! ## Mappings that are written -/

@[simp]
theorem Value.section?_ofFields (fields : List (String × Value)) :
    (ofFields fields).section? = .ok (fields.map fun (k, v) => (text k, v)) := rfl

@[simp]
theorem Value.settingText_text (s : String) : (text s).settingText = .ok s := rfl

/-! ## The three sections -/

namespace InterpreterSettings

/-- The pairs of distinct words are their own `setEntries`. -/
theorem setEntries_of_nodup {pairs : List (String × List String)}
    (h : (pairs.map (·.1)).Nodup) : setEntries pairs [] = pairs := by
  -- the entries that are there already are carried along
  suffices hall : ∀ entries, ((entries ++ pairs).map (·.1)).Nodup →
      setEntries pairs entries = entries ++ pairs from hall [] h
  clear h
  induction pairs with
  | nil => simp [setEntries]
  | cons pair rest ih =>
      intro entries hnodup
      have hnew : pair.1 ∉ entries.map (·.1) := by
        intro hmem
        rw [List.map_append, List.nodup_append] at hnodup
        exact hnodup.2.2 _ hmem _ List.mem_cons_self rfl
      have hset := Catalogue.setEntry_of_notMem pair.2 hnew
      calc setEntries (pair :: rest) entries
          = setEntries rest (Catalogue.setEntry pair.1 pair.2 entries) := rfl
        _ = setEntries rest (entries ++ [pair]) := by rw [hset]
        _ = entries ++ [pair] ++ rest := ih _ (by simpa using hnodup)
        _ = entries ++ pair :: rest := by simp

/-- Words that are set one after another are distinct. -/
theorem nodup_setEntries (pairs : List (String × List String)) :
    ((setEntries pairs []).map (·.1)).Nodup := by
  suffices hall : ∀ entries : List (String × List String), (entries.map (·.1)).Nodup →
      ((setEntries pairs entries).map (·.1)).Nodup from hall [] List.nodup_nil
  induction pairs with
  | nil => exact fun entries h => h
  | cons pair rest ih => exact fun entries h => ih _ (Catalogue.nodup_setEntry pair.1 pair.2 h)

/-- The further type words of a section are distinct. -/
theorem ReadFrom.nodup {s : InterpreterSettings} {entries : List (Value × Value)}
    (h : s.ReadFrom entries) : (s.extraTypes.map (·.1)).Nodup := by
  obtain ⟨extra, -, htypes⟩ := h.extra
  obtain ⟨pairs, -, heq⟩ := extraTypes?_eq_ok_iff.1 htypes
  rw [← heq]
  exact nodup_setEntries pairs

/-- Type words that `toValue` writes are read by `extraTypes?` as they are. -/
theorem extraTypes?_toValue {types : List (String × List String)}
    (h : (types.map (·.1)).Nodup) :
    extraTypes? (types.map fun (word, extensions) =>
      (.text word, .list (extensions.map Value.text))) = .ok types := by
  refine extraTypes?_eq_ok_iff.2 ⟨types, ?_, setEntries_of_nodup h⟩
  rw [mapM_eq_ok_iff, List.forall₂_map_left_iff, List.forall₂_same]
  intro entry _
  refine extraEntry_eq_ok_iff.2 ⟨⟨rfl, rfl⟩, entry.2.map Value.text, rfl, ?_, ?_⟩
  · intro item hitem
    obtain ⟨extension, -, rfl⟩ := List.mem_map.1 hitem
    rfl
  · rw [List.map_map]
    exact List.map_id _

/-- The section that is written holds the settings. -/
theorem ofValue_toValue {s : InterpreterSettings} (h : (s.extraTypes.map (·.1)).Nodup) :
    ofValue s.toValue = .ok s := by
  refine ofValue_eq_ok_iff.2 ⟨_, Value.section?_ofFields _, ?_⟩
  exact {
    recent := by simp [Value.givenOr, Value.toInteger]
    large := by simp [Value.givenOr, Value.toInteger]
    small := by simp [Value.givenOr, Value.toInteger]
    extra := by
      refine ⟨_, ?_, extraTypes?_toValue h⟩
      simp [extraEntries?, Value.ofFields, Value.front] }

end InterpreterSettings

/-- The section that `toValue` writes is read as the settings, also if no pattern is left. -/
theorem ScannerSettings.ofValue_toValue (s : ScannerSettings) : ofValue s.toValue = .ok s := by
  refine ofValue_eq_ok_iff.2 ⟨_, Value.section?_ofFields _, ?_⟩
  simp [Value.givenOr, Value.items?, Value.front, Value.flag, Value.holds]

namespace LoggingSettings

variable {homes : Homes}

/-- A directory that has been read is read again from its text, if the home directories that it can
come from are absolute. -/
theorem directory?_text {value : Option Value} {path : Path} (hown : homes.own.IsAbsolute)
    (hhomes : ∀ s user home, value = some (.text s) → (Path.ofText s).tilde? = some user →
      homes.find? user = some home → home.IsAbsolute)
    (h : directory? homes value = .ok path) :
    directory? homes (some (.text path.text)) = .ok path := by
  -- a text is read as a path in normal form that has no tilde to be replaced
  have hread : ∀ {p : Path}, p.IsNormal → p.expandHome homes = some p →
      directory? homes (some (.text p.text)) = .ok p := by
    intro p hp hexpand
    have hholds : (Value.text p.text).holds = true := by
      simpa [Value.holds, Value.front] using hp.text_ne_empty
    simp [directory?, hholds, Path.ofText_text hp, hexpand]
  have hstandard : directory? homes (some (.text (standard homes.own).directory.text)) =
      .ok (standard homes.own).directory := by
    apply hread
    · have hfirst : Path.IsPart ".file_commands" := ⟨by decide, by decide, by decide⟩
      have hsecond : Path.IsPart "logs" := ⟨by decide, by decide, by decide⟩
      exact (hown.normal.child hfirst).child hsecond
    · exact Path.expandHome_of_root_ne_empty hown.root
  unfold directory? at h
  split at h
  · cases h
    exact hstandard
  · split at h
    · cases h
      exact hstandard
    · split at h
      · rename_i s hholds
        have hasked : ∀ user home, (Path.ofText s).tilde? = some user →
            homes.find? user = some home → home.IsAbsolute :=
          fun user home => hhomes s user home rfl
        split at h
        · rename_i expanded hexpanded
          cases h
          exact hread ((Path.isNormal_ofText s).expandHome hasked hexpanded)
            (Path.expandHome_expandHome hasked hexpanded)
        · cases h
      · cases h
      · cases h

/-- The section that is written holds the settings. -/
theorem ofValue_toValue {s : LoggingSettings}
    (h : directory? homes (some (.text s.directory.text)) = .ok s.directory) :
    ofValue homes s.toValue = .ok s := by
  refine ofValue_eq_ok_iff.2 ⟨_, Value.section?_ofFields _, ?_⟩
  exact {
    level := by simp [Value.givenOr]
    directory := by simpa using h
    consoleOutput := by simp [Value.flag, Value.holds, Value.front]
    fileOutput := by simp [Value.flag, Value.holds, Value.front]
    jsonFormat := by simp [Value.flag, Value.holds, Value.front]
    maxFileSize := by simp [Value.givenOr, Value.toInteger]
    backupCount := by simp [Value.givenOr, Value.toInteger] }

end LoggingSettings

/-! ## All settings -/

namespace Settings

/-- The settings have a form that a mapping can hold: the further type words are distinct, and the
directory is read from its text. -/
structure IsWritable (homes : Homes) (s : Settings) : Prop where
  words : (s.interpreter.extraTypes.map (·.1)).Nodup
  directory : LoggingSettings.directory? homes (some (.text s.logging.directory.text)) =
    .ok s.logging.directory

/-- The `log_dir` in the section `logging` of a mapping starts with `~user`; it starts with `~` for
the empty name. -/
def AsksHomeOf (data : Value) (user : String) : Prop :=
  ∃ entries log s, data.front = .map entries ∧
    (sectionOf "logging" entries).section? = .ok log ∧
    Value.find? "log_dir" log = some (.text s) ∧ (Path.ofText s).tilde? = some user

/-- Settings that `ofValue` reads are `IsWritable`, if the home directories that they ask for are
absolute. -/
theorem isWritable_of_ofValue {homes : Homes} {data : Value} {s : Settings}
    (hown : homes.own.IsAbsolute)
    (husers : ∀ user home, user ≠ "" → AsksHomeOf data user → homes.ofUser? user = some home →
      home.IsAbsolute)
    (h : ofValue homes data = .ok s) : s.IsWritable homes := by
  obtain ⟨entries, hentries, hinterpreter, -, hlogging⟩ := ofValue_eq_ok_iff.1 h
  obtain ⟨_, -, hread⟩ := InterpreterSettings.ofValue_eq_ok_iff.1 hinterpreter
  obtain ⟨log, hsection, hlog⟩ := LoggingSettings.ofValue_eq_ok_iff.1 hlogging
  refine ⟨hread.nodup, LoggingSettings.directory?_text hown ?_ hlog.directory⟩
  intro text user home htext htilde hhome
  -- `~` alone asks for the own home directory, and `~user` for one of `homes.ofUser?`
  by_cases huser : user = ""
  · rw [huser, Homes.find?, if_pos (beq_self_eq_true _)] at hhome
    exact Option.some.inj hhome ▸ hown
  · rw [Homes.find?, if_neg (by simpa using huser)] at hhome
    exact husers user home huser ⟨entries, log, text, hentries, hsection, htext, htilde⟩ hhome

/-- On settings that are `IsWritable`, `ofValue` undoes `toValue`. -/
theorem IsWritable.ofValue_toValue {homes : Homes} {s : Settings} (h : s.IsWritable homes) :
    ofValue homes s.toValue = .ok s := by
  refine ofValue_eq_ok_iff.2 ⟨_, rfl, ?_, ?_, ?_⟩
  · simpa [sectionOf] using InterpreterSettings.ofValue_toValue h.words
  · simpa [sectionOf] using ScannerSettings.ofValue_toValue s.scanner
  · simpa [sectionOf] using LoggingSettings.ofValue_toValue h.directory

/-- Settings are loaded from the text that they are saved as if the text has the value that it was
written from. -/
theorem IsWritable.ofText_toText {homes : Homes} {s : Settings} (h : s.IsWritable homes)
    (hyaml : Yaml.read s.toText = .ok s.toValue) (path : String) :
    ofText homes path s.toText = .ok s := by
  have hdocument : ofDocument homes path s.toValue = .ok s := h.ofValue_toValue
  rw [ofText, hyaml]
  simp [hdocument, Except.mapError]

/-- Settings that `ofValue` reads from a value are read again from the mapping that `toValue`
writes, whether the mapping is taken as it is or as the document of a file. The home directory of
the user is absolute, and so is that of another user if `log_dir` starts with `~user`. -/
theorem ofDocument_toValue {homes : Homes} {data : Value} {s : Settings}
    (hown : homes.own.IsAbsolute)
    (husers : ∀ user home, user ≠ "" → AsksHomeOf data user → homes.ofUser? user = some home →
      home.IsAbsolute)
    (h : ofValue homes data = .ok s) :
    ofValue homes s.toValue = .ok s ∧ ∀ path, ofDocument homes path s.toValue = .ok s := by
  have hwritable := isWritable_of_ofValue hown husers h
  exact ⟨hwritable.ofValue_toValue, fun _ => hwritable.ofValue_toValue⟩

/-- A value whose settings have other forms when they are written. -/
def looseSample : Value :=
  .ofFields [
    ("interpreter", .ofFields [("recent_limit", .text " 25 "),
      ("extra_types", .map [(.text "draft", .list []),
        (.text "book", .list [.text "epub", .int 7])])]),
    ("scanner", .ofFields [("ignore_patterns", .list []), ("recursive", .int 1)]),
    ("logging", .ofFields [("log_dir", .text "~/logs")])]

/-- The home directories of a system on which the only known home is the own one. -/
def sampleHomes : Homes := .only (.ofText "/home/oracle")

theorem ofDocument_toValue_looseSample :
    sampleHomes.own.IsAbsolute ∧ (∀ user, sampleHomes.ofUser? user = none) ∧
      ∃ s, ofValue sampleHomes looseSample = .ok s ∧
        s.interpreter.extraTypes = [("draft", []), ("book", ["epub", "7"])] ∧
        s.logging.directory = ⟨"/", ["home", "oracle", "logs"]⟩ ∧
        s.scanner.ignorePatterns = [] ∧
        ofValue sampleHomes s.toValue = .ok s ∧
          ∀ path, ofDocument sampleHomes path s.toValue = .ok s := by
  have hfields : (ofValue sampleHomes looseSample).toOption.map (fun s =>
      (s.interpreter.extraTypes, s.logging.directory, s.scanner.ignorePatterns.isEmpty)) =
      some ([("draft", []), ("book", ["epub", "7"])], ⟨"/", ["home", "oracle", "logs"]⟩, true) := by
    decide +kernel
  have hown : sampleHomes.own.IsAbsolute := Path.isAbsolute_ofText (by decide)
  refine ⟨hown, fun _ => rfl, ?_⟩
  cases hread : ofValue sampleHomes looseSample with
  | error fault =>
      rw [hread] at hfields
      cases hfields
  | ok s =>
      rw [hread, Except.toOption, Option.map_some, Option.some.injEq, Prod.mk.injEq,
        Prod.mk.injEq, List.isEmpty_iff] at hfields
      have hkept := ofDocument_toValue hown (fun user home _ _ hhome => by cases hhome) hread
      exact ⟨s, rfl, hfields.1, hfields.2.1, hfields.2.2, hkept⟩

end Settings

end FileClerk
