import FileClerk.Log.Row
import FileClerk.Record

/-!
# Level names

The name of a level in the settings is read in any letter case. Two levels have a second name, one
name stands for no level of its own, and any other name stands for the level of warnings. Two names
are taken for texts of the log itself and are refused.
-/

set_option autoImplicit false

namespace FileClerk.Log

open FileClerk.Text

/-- The names of levels with their ranks; `WARN` and `FATAL` are second names, and `NOTSET` stands
for no level. -/
def levelNames : List (String × Nat) :=
  [("DEBUG", 10), ("INFO", 20), ("WARNING", 30), ("WARN", 30), ("ERROR", 40), ("CRITICAL", 50),
    ("FATAL", 50), ("NOTSET", 0)]

/-- The form of a bare row, as it is written in settings of rows. -/
def bareForm : String := "%(levelname)s:%(name)s:%(message)s"

/-- The same form in braces. -/
def bracedForm : String := "\x7blevelname\x7d:\x7bname\x7d:\x7bmessage\x7d"

/-- The same form after dollar signs. -/
def dollarForm : String := "$\x7blevelname\x7d:$\x7bname\x7d:$\x7bmessage\x7d"

/-- The list of forms as it is shown. -/
def shownForms : String :=
  "\x7b'%': (<class 'logging.PercentStyle'>, " ++ quoted bareForm
    ++ "), '\x7b': (<class 'logging.StrFormatStyle'>, " ++ quoted bracedForm
    ++ "), '$': (<class 'logging.StringTemplateStyle'>, " ++ quoted dollarForm ++ ")\x7d"

/-- Why a level name is refused. -/
inductive LevelFault where
  | namesForm
  | namesForms
  deriving DecidableEq, Repr

namespace LevelFault

/-- The failure of the names that `setup_logging` finds texts for instead of ranks. -/
def ofName? (name : String) : Option LevelFault :=
  if name == "BASIC_FORMAT" then some namesForm
  else if name == "_STYLES" then some namesForms
  else none

/-- The kind of a failure. -/
def kindName : LevelFault → String
  | namesForm => "ValueError"
  | namesForms => "TypeError"

/-- The text of a failure. -/
def message : LevelFault → String
  | namesForm => "Unknown level: " ++ quoted bareForm
  | namesForms => "Level not an integer or a valid string: " ++ shownForms

end LevelFault

/-- The rank of `name` in upper case, as `setup_logging` looks it up: an unknown name has that of
`WARNING`. -/
def rankOf (name : String) : Except LevelFault Nat :=
  let name := String.ofList (upper name.toList)
  match LevelFault.ofName? name with
  | some fault => .error fault
  | none => .ok ((levelNames.lookup name).getD Level.warning.rank)

end FileClerk.Log
