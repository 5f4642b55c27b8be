import FileClerk.Record
import FileClerk.Text.Basic

/-!
# Suggestions

Example commands for a user who is still typing, and the guidance for a command that is not
understood.
-/

set_option autoImplicit false

namespace FileClerk.Suggestion

open FileClerk.Text

/-- The commands `EXAMPLE_COMMANDS`, which are offered while typing. -/
def exampleCommands : List String :=
  ["Show all PDF files", "Find duplicate files", "Sort by size", "Find large files",
    "Show most recent files", "Move screenshots larger than 2MB to [SCREENSHOTS]"]

/-- The examples `HELP_EXAMPLES`, which the guidance names. -/
def helpExamples : List String :=
  ["Show PDF files", "Find duplicates", "Sort by size", "Show recent files",
    "Move documents to new folder"]

/-- The `examples` between apostrophes, separated by commas, with "or" before the last of several.
-/
def listing (examples : List String) : String :=
  let quoted := examples.map fun e => "'" ++ e ++ "'"
  match quoted.getLast? with
  | none => ""
  | some last =>
    if quoted.length > 1 then ", ".intercalate quoted.dropLast ++ ", or " ++ last else last

/-- The function `help_message`: the guidance for a command that is not understood. -/
def help (examples : List String) : String :=
  "I'm not sure how to process that command. Try phrases like " ++ listing examples ++ "."

/-- The function `suggest`: the members of `commands` that contain the trimmed `part`, letter case
ignored, except one that equals it. A blank text suggests nothing. -/
def suggest (part : String) (commands : List String) : List String :=
  let needle := lower (trim part.toList)
  if needle.isEmpty then []
  else commands.filter fun command =>
    occursIn needle (lower command.toList) && needle != lower command.toList

end FileClerk.Suggestion
