import FileClerk.Json.Writer
import FileClerk.Log.Row
import FileClerk.Text.Basic

/-!
# Lines of the log

A row is written for readers or for programs. The line for readers shows the time of day, the level
in eight columns, an identifier that all rows of a command share, the logger and the message. The
line for programs is a JSON mapping of the same entries and of the known fields, in a fixed order;
line feeds are escaped in it, so that it is always one line.
-/

set_option autoImplicit false

namespace FileClerk.Log

open FileClerk.Text

/-- A row together with the text of the failure that it reports, if it reports one. -/
structure Event where
  row : Row
  failure : Option String
  deriving BEq, Repr

/-- A failure as the last line of its report. -/
def failureLine (kind text : String) : String := if text.isEmpty then kind else kind ++ ": " ++ text

/-! ## Lines for readers -/

/-- The start of a coloured stretch on a terminal. -/
def colour (code : String) : String := "\x1b[" ++ code ++ "m"

/-- The end of a coloured stretch. -/
def colourEnd : String := colour "0"

/-- The colours of the levels. -/
def levelColours : List (String × String) :=
  [("DEBUG", "36"), ("INFO", "32"), ("WARNING", "33"), ("ERROR", "31"), ("CRITICAL", "35")]

/-- The colour of a level name; a name that is no level has none. -/
def levelColour (level : String) : String := ((levelColours.lookup level).map colour).getD ""

/-- The time of day to the second. -/
def timeOfDay (time : Moment) : String :=
  zeroPadded 2 time.hour ++ ":" ++ zeroPadded 2 time.minute ++ ":" ++ zeroPadded 2 time.secs

/-- The line of `ConsoleFormatter`. -/
def readerLine (coloured : Bool) (time : Moment) (correlation level logger message : String) :
    String :=
  let time := "[" ++ timeOfDay time ++ "] " ++ padRight 8 level
  (if coloured then levelColour level ++ time ++ colourEnd else time)
    ++ " [" ++ correlation ++ "] " ++ logger ++ ": " ++ message

/-- The text `text` with the failure that it reports on the lines below it. -/
def withFailure (text : String) (failure : Option String) : String :=
  text ++ (failure.map fun f => "\n" ++ f).getD ""

/-- The line of `event` for readers, without colours, with its failure below. -/
def Event.readerText (time : Moment) (correlation : String) (event : Event) : String :=
  withFailure (readerLine false time correlation event.row.level.name event.row.logger
    event.row.message) event.failure

/-! ## Lines for programs -/

/-- The fields of `_EXTRA_FIELDS`, which lines for programs show in this order. -/
def knownFields : List String :=
  ["intent", "action", "file_count", "directory", "operation", "duration_ms"]

/-- The fields of `row` that are among `knownFields`, in order. -/
def shownFields (row : Row) : List (String × Value) :=
  knownFields.filterMap fun name => (row.fields.lookup name).map fun value => (name, value)

/-- The entries of the line that `JSONFormatter` writes. -/
def Event.entries (time : Moment) (correlation : String) (event : Event) :
    List (String × Value) :=
  [("timestamp", .text time.text), ("level", .text event.row.level.name),
    ("logger", .text event.row.logger), ("message", .text event.row.message),
    ("correlation_id", .text correlation)]
    ++ (event.failure.map fun f => [("exception", Value.text f)]).getD []
    ++ shownFields event.row

/-- The line of `JSONFormatter`. -/
def Event.programText (time : Moment) (correlation : String) (event : Event) : String :=
  Json.compact (.ofFields (event.entries time correlation))

end FileClerk.Log
