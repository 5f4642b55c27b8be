import FileClerk.Settings.Logging
import FileClerk.Yaml.Document
import FileClerk.Yaml.Writer

/-!
# Settings

The settings as a whole: one section for the interpreter, one for the scanner and one for the log.
Sections are read in this order, and the first failure is the one that counts.

`Settings.ofText` reads the text of a settings file in two steps: the YAML value first, the settings
in it second.
-/

set_option autoImplicit false

namespace FileClerk

/-! ## Sections -/

/-- The settings of all parts, `Config`. -/
structure Settings where
  interpreter : InterpreterSettings
  scanner : ScannerSettings
  logging : LoggingSettings
  deriving BEq, Repr

namespace Settings

/-- The settings of a user without any settings of their own, whose home directory is `home`. -/
def standard (home : Path) : Settings := ⟨{}, {}, .standard home⟩

/-- The section under `name`; a missing one has no entries. -/
def sectionOf (name : String) (entries : List (Value × Value)) : Value :=
  (Value.find? name entries).getD (.map [])

/-- The function `_from_dict`: the settings in a mapping of sections. -/
def ofValue (homes : Homes) (value : Value) : Except SettingsFault Settings :=
  match value.front with
  | .map entries => do
    let interpreter ← InterpreterSettings.ofValue (sectionOf "interpreter" entries)
    let scanner ← ScannerSettings.ofValue (sectionOf "scanner" entries)
    let logging ← LoggingSettings.ofValue homes (sectionOf "logging" entries)
    return ⟨interpreter, scanner, logging⟩
  | _ => .error (.noSection value.kindName)

/-- The part of `load` behind the reading of the file: the settings in `document`; an empty file has
none. -/
def ofDocument (homes : Homes) (path : String) (document : Value) :
    Except SettingsFault Settings :=
  match document.front with
  | .map entries => ofValue homes (.map entries)
  | _ => if document.holds then .error (.topLevelNotMapping path) else ofValue homes (.map [])

/-- The mapping that `save` writes. -/
def toValue (s : Settings) : Value :=
  .ofFields [("interpreter", s.interpreter.toValue), ("scanner", s.scanner.toValue),
    ("logging", s.logging.toValue)]

end Settings

/-! ## Settings files -/

/-- Why a file gives no settings. -/
inductive SettingsFileFault where
  | yaml (fault : Yaml.Fault)
  | settings (fault : SettingsFault)
  deriving BEq, Repr

namespace SettingsFileFault

/-- The kind of a failure. -/
def kindName : SettingsFileFault → String
  | yaml fault => fault.kindName
  | settings fault => fault.kindName

/-- The text of a failure. -/
def message : SettingsFileFault → String
  | yaml fault => fault.message
  | settings fault => fault.message

end SettingsFileFault

namespace Settings

/-- The run of `load` on the `text` of the file at `path`. -/
def ofText (homes : Homes) (path text : String) : Except SettingsFileFault Settings :=
  match Yaml.read text with
  | .error fault => .error (.yaml fault)
  | .ok document => (ofDocument homes path document).mapError .settings

/-- The function `save`: the text of the file that holds the settings. -/
def toText (s : Settings) : String := Yaml.write s.toValue

end Settings

end FileClerk
