import FileClerk.Proofs.Log.Faithful
import FileClerk.Proofs.Settings.RoundTrip
import FileClerk.Proofs.Text.Capital

/-!
# Levels in settings

The level in the section of the log may be any text. Set to whatever text, it never keeps the
settings from being read (`LoggingSettings.ofValue_insert_level`). The setup then takes the rank of
the level whose name the text spells, in any letter case, and the rank of warnings if it spells none
(`rankOf_eq_ok_iff`).

What is looked for is not only a level name, though: two more names in upper case stand for
something, and they are refused. All other texts are accepted (`configure_level_iff`).
-/

set_option autoImplicit false

namespace FileClerk

open FileClerk.Text

/-! ## Sections -/

/-- The settings of a section with another `level`: no text is refused when settings are read. -/
theorem LoggingSettings.ofValue_insert_level {homes : Homes} {entries : List (Value × Value)}
    {base : LoggingSettings} (h : ofValue homes (.map entries) = .ok base) (level : String) :
    ofValue homes (.map (Value.insert (.text "level") (.text level) entries)) =
      .ok { base with level } := by
  obtain ⟨found, hsection, hread⟩ := ofValue_eq_ok_iff.1 h
  obtain rfl : entries = found := Except.ok.inj hsection
  -- the other keys keep their values
  have hother : ∀ key, key ≠ "level" →
      Value.find? key (Value.insert (.text "level") (.text level) entries) =
        Value.find? key entries := by
    intro key hkey
    rw [Value.find?_insert_text, if_neg hkey.symm]
  apply ofValue_eq_ok_iff.2
  refine ⟨_, rfl, ?_⟩
  constructor
  · rw [Value.givenOr, Value.find?_insert_text, if_pos rfl]
    rfl
  · rw [hother "log_dir" (by decide)]
    exact hread.directory
  · rw [Value.flag, hother "console_output" (by decide)]
    exact hread.consoleOutput
  · rw [Value.flag, hother "file_output" (by decide)]
    exact hread.fileOutput
  · rw [Value.flag, hother "json_format" (by decide)]
    exact hread.jsonFormat
  · rw [Value.givenOr, hother "max_file_size" (by decide)]
    exact hread.maxFileSize
  · rw [Value.givenOr, hother "backup_count" (by decide)]
    exact hread.backupCount

namespace Log

/-! ## Level names -/

/-- The text `s` spells `name`, each letter in any case: the upper-case form of `s` is `name`. -/
def Spells (s name : String) : Prop := List.Forall₂ IsCapitalOf name.toList s.toList

/-- The text asks for `rank`: it `Spells` the name of a level of this rank, or the rank is that of
`warning` and the text spells no level name. -/
def AsksFor (level : String) (rank : Nat) : Prop :=
  (∃ name, (name, rank) ∈ levelNames ∧ Spells level name) ∨
    rank = Level.warning.rank ∧ ∀ entry ∈ levelNames, ¬Spells level entry.1

theorem ofList_eq_iff {s : List Char} {name : String} :
    String.ofList s = name ↔ s = name.toList := by
  rw [← String.toList_inj, String.toList_ofList]

/-- The texts whose `upper` is a level name are those that have `Spells`. -/
theorem upper_eq_iff_spells {entry : String × Nat} (h : entry ∈ levelNames) (s : String) :
    upper s.toList = entry.1.toList ↔ Spells s entry.1 := by
  have hascii : ∀ entry ∈ levelNames, ∀ letter ∈ entry.1.toList, letter.toNat < 128 := by
    decide +kernel
  -- no two letters of a level name are the capital form of one character
  have hshort : ∀ entry ∈ levelNames, ∀ e ∈ upperExpansions,
      ¬e.2.map Char.ofNat <:+: entry.1.toList := by
    decide +kernel
  exact upper_eq_iff (hascii entry h) (hshort entry h) s.toList

/-- Every level name has one entry. -/
theorem lookup_levelNames_eq_some_iff {name : String} {rank : Nat} :
    levelNames.lookup name = some rank ↔ (name, rank) ∈ levelNames := by
  constructor
  · exact mem_of_lookup
  · have hall : ∀ entry ∈ levelNames, levelNames.lookup entry.1 = some entry.2 := by
      decide +kernel
    exact hall (name, rank)

/-- What the table gives for the upper-case form is the rank of a level name that the text
spells. -/
theorem lookup_upper_eq_some_iff {level : String} {rank : Nat} :
    levelNames.lookup (String.ofList (upper level.toList)) = some rank ↔
      ∃ name, (name, rank) ∈ levelNames ∧ Spells level name := by
  rw [lookup_levelNames_eq_some_iff]
  constructor
  · intro hmem
    refine ⟨_, hmem, ?_⟩
    rw [← upper_eq_iff_spells hmem, String.toList_ofList]
  · rintro ⟨name, hmem, hname⟩
    rw [ofList_eq_iff.2 ((upper_eq_iff_spells hmem level).2 hname)]
    exact hmem

theorem lookup_upper_eq_none_iff {level : String} :
    levelNames.lookup (String.ofList (upper level.toList)) = none ↔
      ∀ entry ∈ levelNames, ¬Spells level entry.1 := by
  rw [Option.eq_none_iff_forall_ne_some]
  simp only [Ne, lookup_upper_eq_some_iff, not_exists, not_and, Prod.forall]
  exact forall_comm

/-- The lookup by the upper-case form, with the rank of `warning` where there is none, gives the
rank that the text `AsksFor`. -/
theorem getD_lookup_upper_eq_iff {level : String} {rank : Nat} :
    (levelNames.lookup (String.ofList (upper level.toList))).getD Level.warning.rank = rank ↔
      AsksFor level rank := by
  rw [AsksFor, ← lookup_upper_eq_some_iff, ← lookup_upper_eq_none_iff]
  cases levelNames.lookup (String.ofList (upper level.toList)) with
  | some found => simp
  | none => simp [eq_comm]

/-! ## Refused names -/

/-- The upper-case form of the text is no name that stands for something else than a level, such as
`BASIC_FORMAT`. -/
def IsFreeName (level : String) : Prop :=
  upper level.toList ≠ "BASIC_FORMAT".toList ∧ upper level.toList ≠ "_STYLES".toList

instance (level : String) : Decidable (IsFreeName level) :=
  inferInstanceAs (Decidable (_ ∧ _))

theorem ofName?_upper_eq_none_iff {level : String} :
    LevelFault.ofName? (String.ofList (upper level.toList)) = none ↔ IsFreeName level := by
  rw [IsFreeName, Ne, Ne, ← ofList_eq_iff, ← ofList_eq_iff, LevelFault.ofName?]
  split
  · rename_i heq
    simp [eq_of_beq heq]
  · rename_i hne
    split
    · rename_i heq
      simp [eq_of_beq heq]
    · rename_i hne'
      simpa using And.intro (by simpa using hne) (by simpa using hne')

/-- The `rankOf` a text that `IsFreeName` is the one that it `AsksFor`; any other text is refused.
-/
theorem rankOf_eq_ok_iff {level : String} {rank : Nat} :
    rankOf level = .ok rank ↔ IsFreeName level ∧ AsksFor level rank := by
  rw [← ofName?_upper_eq_none_iff, ← getD_lookup_upper_eq_iff, rankOf]
  cases LevelFault.ofName? (String.ofList (upper level.toList)) with
  | some fault => simp
  | none => simp

/-- The dotless i stands for its capital. -/
example : rankOf "ınfo" = .ok Level.info.rank := by decide +kernel

/-! ## Setups -/

section Configure

variable {settings : LoggingSettings} {current setup : Setup}

/-- The result of `configure` is there if `level` has a `rankOf`. -/
theorem configure_eq_ok_iff :
    current.configure settings = .ok setup ↔
      ∃ rank, rankOf settings.level = .ok rank ∧
        setup = ⟨rank, Setup.handlersOf settings, false⟩ := by
  constructor
  · exact configure_eq_ok
  · rintro ⟨rank, hrank, rfl⟩
    rw [Setup.configure, hrank]
    rfl

/-- Without output to a file no handler writes to one. -/
theorem file_notMem_handlersOf (h : settings.fileOutput = false) :
    Handler.file ∉ Setup.handlersOf settings := by
  rw [Setup.handlersOf, h]
  cases settings.consoleOutput with
  | true => simp
  | false => simp

end Configure

/-- In a section without `file_output` the `level` may be set to any text. The section is read, and
`configure` gives a setup with the rank that the text `AsksFor` exactly if the text `IsFreeName`. -/
theorem configure_level_iff {homes : Homes} {entries : List (Value × Value)}
    {base : LoggingSettings}
    (hbase : LoggingSettings.ofValue homes (.map entries) = .ok base)
    (hfile : base.fileOutput = false) (current : Setup) (level : String) :
    LoggingSettings.ofValue homes (.map (Value.insert (.text "level") (.text level) entries)) =
        .ok { base with level } ∧
      ((∃ setup, current.configure { base with level } = .ok setup ∧
          Handler.file ∉ setup.handlers ∧ AsksFor level setup.rank) ↔ IsFreeName level) := by
  refine ⟨LoggingSettings.ofValue_insert_level hbase level, ?_⟩
  constructor
  · rintro ⟨setup, hsetup, -, -⟩
    obtain ⟨rank, hrank, -⟩ := configure_eq_ok_iff.1 hsetup
    exact (rankOf_eq_ok_iff.1 hrank).1
  · intro hfree
    -- a text that is not refused has a rank, in the table or that of warnings
    have hasks : AsksFor level _ := getD_lookup_upper_eq_iff.1 rfl
    have hrank := rankOf_eq_ok_iff.2 ⟨hfree, hasks⟩
    refine ⟨_, configure_eq_ok_iff.2 ⟨_, hrank, rfl⟩, ?_, hasks⟩
    exact file_notMem_handlersOf hfile

/-- The level of a section that has another setting is set to the name of a level in small
letters. -/
theorem configure_level_debug :
    let homes := Homes.only (.ofText "/home/user")
    let base := { LoggingSettings.standard homes.own with jsonFormat := true }
    LoggingSettings.ofValue homes (.map [(.text "json_format", .bool true)]) = .ok base ∧
      base.fileOutput = false ∧
      ∃ setup, Setup.initial.configure { base with level := "debug" } = .ok setup ∧
        Handler.file ∉ setup.handlers ∧ AsksFor "debug" setup.rank := by
  intro homes base
  have hbase : LoggingSettings.ofValue homes (.map [(.text "json_format", .bool true)]) =
      .ok base := by rfl
  have hfile : base.fileOutput = false := rfl
  refine ⟨hbase, hfile, ?_⟩
  exact (configure_level_iff hbase hfile .initial "debug").2.2 (by decide +kernel)

/-- The name `basic_format` is refused: in capitals it is the name of the form of rows. -/
theorem configure_refuses_form :
    ∃ settings, LoggingSettings.ofValue (.only (.ofText "/home/user"))
        (.map [(.text "level", .text "basic_format")]) = .ok settings ∧
      settings.fileOutput = false ∧ Setup.initial.configure settings = .error .namesForm :=
  ⟨_, rfl, rfl, by decide +kernel⟩

end Log

end FileClerk
