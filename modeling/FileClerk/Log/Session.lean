import FileClerk.Log.Logger

/-!
# Sessions of the log

The setup of the log says from which rank on events are written, and where: to the console in one of
two forms, and to a file. A new setup replaces the one before it. An event is taken by the logger
that it names, which is known from then on, and written by all handlers that it comes to. Without
any, warnings and graver events go to the console as bare messages.
-/

set_option autoImplicit false

namespace FileClerk.Log

open FileClerk.Text

/-! ## Written texts -/

/-- What a session has written: the text on the console and the text of the file. -/
structure Written where
  console : String
  file : String
  deriving DecidableEq, Repr

namespace Written

/-- Nothing. -/
def empty : Written := ⟨"", ""⟩

/-- What is written with a further line on the console. -/
def onConsole (written : Written) (line : String) : Written :=
  { written with console := written.console ++ line ++ "\n" }

/-- What is written with a further line in the file. -/
def inFile (written : Written) (line : String) : Written :=
  { written with file := written.file ++ line ++ "\n" }

end Written

/-- What a session takes from outside: the identifier of its command, and the clock, which every
handler reads for itself. `clock n handler` is the time at which the handler writes the event with
`n` events in front of it. -/
structure Context where
  clock : Nat → Handler → Moment
  correlation : String

namespace Context

/-- A context whose clock stands still. -/
def atTime (time : Moment) (correlation : String) : Context := ⟨fun _ _ => time, correlation⟩

/-- The context for the events behind the first one. -/
def next (context : Context) : Context :=
  { context with clock := fun n => context.clock (n + 1) }

/-- The time at which a handler writes the first event. -/
def time (context : Context) (handler : Handler) : Moment := context.clock 0 handler

end Context

/-- The line that a handler writes for the first event of a context. -/
def Handler.line (context : Context) (event : Event) (handler : Handler) : String :=
  match handler with
  | .console false => event.readerText (context.time handler) context.correlation
  | _ => event.programText (context.time handler) context.correlation

/-- What is written once `handler` has taken `event`. -/
def Handler.write (context : Context) (event : Event) (written : Written) (handler : Handler) :
    Written :=
  match handler with
  | .console _ => written.onConsole (handler.line context event)
  | .file => written.inFile (handler.line context event)

/-- What is written once an event without any handler has been taken: a bare message, for warnings
and graver events. -/
def writeBare (event : Event) (written : Written) : Written :=
  if Level.warning.rank ≤ event.row.level.rank then
    written.onConsole (withFailure event.row.message event.failure)
  else written

/-! ## Refused events -/

/-- Why an event is refused: a further field has a name of its own in every row. -/
inductive EventFault where
  | reserved (name : String)
  deriving DecidableEq, Repr

namespace EventFault

/-- The kind of a failure. -/
def kindName : EventFault → String
  | reserved _ => "KeyError"

/-- The text of a failure. -/
def message : EventFault → String
  | reserved name => quoted ("Attempt to overwrite " ++ quoted name ++ " in LogRecord")

end EventFault

/-! ## Sessions -/

namespace Loggers

/-- What is written once `event` has been taken by its logger. -/
def write (loggers : Loggers) (context : Context) (written : Written) (event : Event) : Written :=
  let handlers := reached (loggers.lineage event.row.logger)
  if handlers.isEmpty then writeBare event written
  else handlers.foldl (fun written handler => handler.write context event written) written

/-- What is written once `event` has come to its logger. An event that is taken must not have a
further field in `reservedNames`. -/
def take (loggers : Loggers) (context : Context) (written : Written) (event : Event) :
    Except EventFault Written :=
  if loggers.admits event.row.logger event.row.level then
    match event.row.clash? with
    | some name => .error (.reserved name)
    | none => .ok (loggers.write context written event)
  else .ok written

/-- What a session of events has written in the end. Each event makes its logger known before it is
taken. -/
def session (context : Context) : Loggers → Written → List Event → Except EventFault Written
  | _, written, [] => .ok written
  | loggers, written, event :: rest => do
    let loggers := loggers.asked event.row.logger event.row.level
    session context.next loggers (← loggers.take context written event) rest

end Loggers

/-- What `events` write after `setup`, no logger being known but `rootLogger`. -/
def Setup.checkedSession (setup : Setup) (context : Context) (events : List Event) :
    Except EventFault Written :=
  (Loggers.ofSetup setup).session context .empty events

end FileClerk.Log
