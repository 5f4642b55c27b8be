import FileClerk.Path
import FileClerk.Settings.Scanner

/-!
# Settings of the log

From which level on rows are written, whether they go to the console and to a file, in which form
and where the file lies. A leading tilde in the directory stands for a home directory.
-/

set_option autoImplicit false

namespace FileClerk

/-- The settings of the log, `LoggingConfig`. -/
structure LoggingSettings where
  level : String
  directory : Path
  consoleOutput : Bool
  fileOutput : Bool
  jsonFormat : Bool
  maxFileSize : Int
  backupCount : Int
  deriving DecidableEq, Repr

namespace LoggingSettings

/-- The settings of a user without any settings of their own, whose home directory is `home`. -/
def standard (home : Path) : LoggingSettings :=
  ⟨"WARNING", (home.child ".file_commands").child "logs", true, false, false, 10485760, 5⟩

/-- The directory under `log_dir`; an empty value stands for the default. -/
def directory? (homes : Homes) (value : Option Value) : Except SettingsFault Path :=
  match value with
  | none => .ok (standard homes.own).directory
  | some value =>
    if !value.holds then .ok (standard homes.own).directory
    else
      match value with
      | .text s =>
        match (Path.ofText s).expandHome homes with
        | some path => .ok path
        | none => .error .noHome
      | .bytes _ => .error .bytesPath
      | value => .error (.notAPath value.shortKindName)

/-- The integer under `key`, or `default` without one. -/
def integer? (key : String) (default : Int) (entries : List (Value × Value)) :
    Except SettingsFault Int :=
  (((Value.find? key entries).getD (.int default)).toInteger).mapError .integer

/-- The function `from_dict`: the settings in a section. -/
def ofValue (homes : Homes) (value : Value) : Except SettingsFault LoggingSettings := do
  let entries ← value.section?
  let fallback := standard homes.own
  let level ← ((Value.find? "level" entries).getD (.text fallback.level)).settingText
  let directory ← directory? homes (Value.find? "log_dir" entries)
  let maxFileSize ← integer? "max_file_size" fallback.maxFileSize entries
  let backupCount ← integer? "backup_count" fallback.backupCount entries
  return {
    level
    directory
    consoleOutput := Value.flag "console_output" fallback.consoleOutput entries
    fileOutput := Value.flag "file_output" fallback.fileOutput entries
    jsonFormat := Value.flag "json_format" fallback.jsonFormat entries
    maxFileSize
    backupCount }

/-- The section that `save` writes. -/
def toValue (s : LoggingSettings) : Value :=
  .ofFields [("level", .text s.level), ("log_dir", .text s.directory.text),
    ("console_output", .bool s.consoleOutput), ("file_output", .bool s.fileOutput),
    ("json_format", .bool s.jsonFormat), ("max_file_size", .int s.maxFileSize),
    ("backup_count", .int s.backupCount)]

end LoggingSettings

end FileClerk
