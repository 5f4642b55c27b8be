import FileClerk.Settings.Interpreter

/-!
# Settings of the scanner

Which names a scan leaves out, whether it goes into subdirectories and whether it lists hidden
files. Patterns are kept as they are given; one that is no text makes a scan fail later.
-/

set_option autoImplicit false

namespace FileClerk

/-- The patterns of `ignore_patterns` without any settings. -/
def standardPatterns : List Value :=
  ["*.tmp", "*.crdownload", "~$*", ".DS_Store", "Thumbs.db", "*.part"].map Value.text

/-- The settings of the scanner, `ScannerConfig`. -/
structure ScannerSettings where
  ignorePatterns : List Value := standardPatterns
  intoSubdirectories : Bool := false
  includeHidden : Bool := false
  deriving BEq, Repr

/-- The truth of the value under `key`, or `default` without one. -/
def Value.flag (key : String) (default : Bool) (entries : List (Value × Value)) : Bool :=
  match find? key entries with
  | none => default
  | some value => value.holds

namespace ScannerSettings

/-- The function `from_dict`: the settings in a section. -/
def ofValue (value : Value) : Except SettingsFault ScannerSettings := do
  let entries ← value.section?
  let patterns := (Value.find? "ignore_patterns" entries).getD (.list standardPatterns)
  match patterns.items? with
  | none => .error (.notIterable patterns.kindName)
  | some items =>
    return ⟨items, Value.flag "recursive" false entries, Value.flag "include_hidden" false entries⟩

/-- The section that `save` writes. -/
def toValue (s : ScannerSettings) : Value :=
  .ofFields [("ignore_patterns", .list s.ignorePatterns), ("recursive", .bool s.intoSubdirectories),
    ("include_hidden", .bool s.includeHidden)]

end ScannerSettings

end FileClerk
