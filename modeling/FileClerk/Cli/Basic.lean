import FileClerk.Cli.Arguments
import FileClerk.Collection.Basic
import FileClerk.Json.Writer
import FileClerk.Log.Session
import FileClerk.Rendering
import FileClerk.Scan.Basic
import FileClerk.Settings.Basic

/-!
# The command line

One command is run over the files of a directory, or over the sample collection, and its answer is
written as text or as JSON. Nothing is moved: an answer lists files and names a folder.

What is outside of the program is given as a `World`: what a scan finds there, and the time. A run
ends with an exit code and texts for the two outputs, or with a failure that is none of the user's.
-/

set_option autoImplicit false

namespace FileClerk.Cli

open FileClerk.Text FileClerk.Log FileClerk.Scan

/-- What a run finds outside of the program: the world of a scan, and the time that `clock` gives.
-/
structure World extends Scan.World where
  clock : Moment

/-- How a run ends: its exit code, the text on the standard output, the messages for the user, and
the events of the log with its setup. -/
structure Outcome where
  exitCode : Nat
  output : String
  messages : List String
  setup : Setup
  events : List Event

/-- A failure that a run does not report to the user. An option without a value fails where its
value is used. -/
inductive RunFault where
  | noValue (use : String)
  | access (fault : AccessFault) (path : Path)
  | settings (fault : SettingsFileFault)
  | level (fault : LevelFault)
  | scan (fault : ScanFault)
  | command (fault : CommandFault)
  | size (fault : Rendering.SizeFault)
  deriving BEq, Repr

namespace RunFault

/-- The kind of a failure. -/
def kindName : RunFault → String
  | noValue _ => "AttributeError"
  | access fault _ => fault.kindName
  | settings fault => fault.kindName
  | level fault => fault.kindName
  | scan fault => fault.kindName
  | command fault => fault.kindName
  | size fault => fault.kindName

/-- The text of a failure. -/
def message : RunFault → String
  | noValue use => "'list' object has no attribute '" ++ use ++ "'"
  | access fault path => fault.message path
  | settings fault => fault.message
  | level fault => fault.message
  | scan fault => fault.message
  | command fault => fault.message
  | size fault => fault.message

end RunFault

/-! ## Ends of runs -/

/-- The name of the program. -/
def programName : String := "file-commands"

/-- The summary of the arguments that stands in front of a message about them. -/
def usage : String :=
  "usage: " ++ programName
    ++ " [-h] [--directory DIRECTORY | --sample] [--config CONFIG] [--json]\n"
    ++ "                     [--suggest TEXT] [--verbose]\n                     [command ...]\n"

/-- A run that writes a text and succeeds. -/
def succeed (output : String) : Outcome := ⟨0, output, [], .initial, []⟩

/-- A run whose arguments are refused. -/
def refuse (fault : UsageFault) : Outcome :=
  ⟨2, "", [programName ++ ": error: " ++ fault.message], .initial, []⟩

/-- A run that fails with exit code 1 and `message` for the user. -/
def fail (setup : Setup) (events : List Event) (message : String) : Outcome :=
  ⟨1, "", ["✗ " ++ message], setup, events⟩

/-- The event of a report. -/
def reported (report : Report) : Event :=
  ⟨⟨.error, "file_commands.main", report.text, []⟩, none⟩

/-! ## Runs -/

/-- The name of the settings file that is read when none is named. -/
def settingsFile : Path := Path.ofText "file_commands.yaml"

/-- The run of `Config.load` on a path: the settings in the file, and the standard ones if it is not
there. -/
def loadSettings (world : World) (path : Path) : Except RunFault Settings :=
  match world.tree.inspect path with
  | .error fault =>
    if fault.meansAbsent then .ok (.standard world.homes.own) else .error (.access fault path)
  | .ok _ => do
    let text ← (world.tree.readText path).mapError (.access · path)
    (Settings.ofText world.homes path.text text).mapError .settings

/-- The settings in the file that `--config` names, or in `settingsFile`. -/
def namedSettings (world : World) (arguments : Arguments) : Except RunFault Settings :=
  match arguments.config with
  | none => loadSettings world settingsFile
  | some (.text s) => loadSettings world (Path.ofText s)
  | some .nothing => .error (.noValue "exists")

/-- The settings of a run; with `--verbose`, rows of level `DEBUG` are written too. -/
def withVerbosity (arguments : Arguments) (settings : Settings) : Settings :=
  if arguments.verbose then
    { settings with logging := { settings.logging with level := Level.debug.name } }
  else settings

/-- The message to the user about a failure, with the report behind it, for the failures that `main`
catches. -/
def userMessage? : RunFault → Option (String × Option Report)
  | .settings (.yaml .malformed) => some (Yaml.Fault.malformed.message, none)
  | .settings (.settings fault) => fault.report?.map fun report => (report.message, some report)
  | .scan fault => fault.report?.map fun report => (report.message, some report)
  | _ => none

/-- The end of a run that fails. -/
def endWith (setup : Setup) (events : List Event) (fault : RunFault) : Except RunFault Outcome :=
  match userMessage? fault with
  | some (message, report) => .ok (fail setup (events ++ report.toList.map reported) message)
  | none => .error fault

/-- The collection that a command runs over, a scan or the sample, with the rows of its scan. -/
def collect (world : World) (arguments : Arguments) (settings : Settings) :
    Except RunFault (List Record) × List Row :=
  if arguments.sample then (.ok (Collection.sample Collection.sampleFolder), [])
  else
    let directory := match arguments.directory with
      | some (.text s) => Path.ofText s
      | _ => ⟨"/", world.tree.here⟩
    let scanned := scan world.toWorld settings.scanner directory
    (scanned.result.mapError .scan, scanned.log)

/-- The answer as `--json` or `renderText` writes it. -/
def answerText (arguments : Arguments) (answer : Answer) : Except RunFault String :=
  if arguments.json then .ok (Json.indented 0 answer.toValue ++ "\n")
  else ((Rendering.render answer).map (· ++ "\n")).mapError .size

/-- Rows as events. -/
def eventsOf (rows : List Row) : List Event := rows.map (⟨·, none⟩)

/-- The answer to a command over a collection, written out. -/
def answerOver (world : World) (arguments : Arguments) (settings : Settings) (command : String)
    (setup : Setup) (rows : List Row) (files : List Record) : Except RunFault Outcome := do
  let interpreter := Interpreter.ofSettings settings.interpreter world.clock none
  let outcome ← (interpreter.run (some command) files).mapError .command
  let text ← answerText arguments outcome.answer
  return { succeed text with setup, events := eventsOf (rows ++ outcome.log) }

/-- The run of a command. -/
def runCommand (world : World) (arguments : Arguments) (command : String) :
    Except RunFault Outcome :=
  match namedSettings world arguments with
  | .error fault => endWith .initial [] fault
  | .ok settings => do
    let settings := withVerbosity arguments settings
    let setup ← (Setup.configure settings.logging .initial).mapError .level
    match collect world arguments settings with
    | (.error fault, rows) => endWith setup (eventsOf rows) fault
    | (.ok files, rows) => answerOver world arguments settings command setup rows files

/-- The run of `main` on a list of arguments. -/
def run (world : World) (arguments : List String) : Except RunFault Outcome :=
  match Arguments.ofList arguments with
  | .error fault => .ok (refuse fault)
  | .ok arguments =>
    if arguments.help then .ok (succeed usage)
    else
      match arguments.suggest with
      | some .nothing => .error (.noValue "strip")
      | some (.text part) =>
        let lines := Suggestion.suggest part Suggestion.exampleCommands
        .ok (succeed (String.join (lines.map (· ++ "\n"))))
      | none =>
        let command := " ".intercalate arguments.command
        if (trim command.toList).isEmpty then .ok (refuse .noCommand)
        else runCommand world arguments command

end FileClerk.Cli
