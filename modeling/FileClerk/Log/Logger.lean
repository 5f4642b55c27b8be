import FileClerk.Log.Level
import FileClerk.Log.Line
import FileClerk.Settings.Logging

/-!
# Loggers

Loggers form a tree by the points in their names. A logger is set up with the rank from which on it
takes events, with handlers, and to pass events on to the logger above it or not. One without a rank
of its own has that of the nearest logger above it that has one. Whether a logger takes events of a
level is found out once and kept.

Settings are for the logger that carries the name of the program. All others of the program stand
below it and are not set up. Above it is the logger of all programs, which is not set up here
either.
-/

set_option autoImplicit false

namespace FileClerk.Log

/-- A place that events are written to. -/
inductive Handler where
  | console (forPrograms : Bool)
  | file
  deriving DecidableEq, Repr

/-- The kind of a handler, as it is shown. -/
def Handler.kindName : Handler → String
  | console _ => "StreamHandler"
  | file => "RotatingFileHandler"

/-! ## Setups -/

/-- The setup of a logger: the rank of its level, which is zero if it has none of its own, its
handlers, and whether events go on to the logger above it. -/
structure Setup where
  rank : Nat
  handlers : List Handler
  passesOn : Bool
  deriving DecidableEq, Repr

namespace Setup

/-- The setup of a logger before any settings are taken. -/
def initial : Setup := ⟨0, [], true⟩

/-- The setup of the logger above all programs when no program has changed it. -/
def topmost : Setup := ⟨Level.warning.rank, [], true⟩

/-- The handlers that `setup_logging` adds for `settings`. -/
def handlersOf (settings : LoggingSettings) : List Handler :=
  (if settings.consoleOutput then [.console settings.jsonFormat] else [])
    ++ (if settings.fileOutput then [.file] else [])

/-- The function `setup_logging`: the setup that `settings` turn `current` into. -/
def configure (settings : LoggingSettings) (current : Setup) : Except LevelFault Setup := do
  let rank ← rankOf settings.level
  return { current with rank, handlers := handlersOf settings, passesOn := false }

end Setup

/-! ## The tree -/

/-- The known loggers above a name that is given from its end, the nearest one first. The name of a
logger above goes up to a point; where no logger is known at a point, a second point right in front
of it is passed over. -/
def above (known : List String) : List Char → List String
  | [] => []
  | [_] => []
  | c :: d :: rest =>
    if c == '.' then
      if known.contains (String.ofList (d :: rest).reverse) then
        String.ofList (d :: rest).reverse :: above known (d :: rest)
      else above known rest
    else above known (d :: rest)

/-- The loggers of a session: the names that are known, what was found out about levels of loggers,
the setup of `rootLogger`, and that of the logger above all programs. -/
structure Loggers where
  known : List String
  verdicts : List ((String × Level) × Bool)
  own : Setup
  top : Setup
  deriving DecidableEq, Repr

/-- The rank of the first setup in a lineage that has one. -/
def effectiveRank (lineage : List Setup) : Nat :=
  ((lineage.map Setup.rank).find? (· != 0)).getD 0

/-- The handlers that an event comes to, up to a setup that does not pass it on. -/
def reached : List Setup → List Handler
  | [] => []
  | setup :: rest => setup.handlers ++ if setup.passesOn then reached rest else []

namespace Loggers

/-- The loggers when one is set up and no other one is known. -/
def ofSetup (setup : Setup) : Loggers := ⟨[rootLogger], [], setup, .topmost⟩

/-- The setup of the logger `name`, which stands below the one above all programs. -/
def setupOf (loggers : Loggers) (name : String) : Setup :=
  if name == rootLogger then loggers.own else .initial

/-- The setups that count for the logger `name`: its own and those of the loggers above it. -/
def lineage (loggers : Loggers) (name : String) : List Setup :=
  (name :: above loggers.known name.toList.reverse).map loggers.setupOf ++ [loggers.top]

/-- The logger `name` takes events of `level`: what was found out before counts, else
`effectiveRank`. -/
def admits (loggers : Loggers) (name : String) (level : Level) : Bool :=
  (loggers.verdicts.lookup (name, level)).getD
    (effectiveRank (loggers.lineage name) ≤ level.rank)

/-- The tree `loggers` with `name` as a further known name, and with what is found out for an event
of `level`. -/
def asked (loggers : Loggers) (name : String) (level : Level) : Loggers :=
  let loggers := { loggers with known := name :: loggers.known }
  { loggers with verdicts := ((name, level), loggers.admits name level) :: loggers.verdicts }

end Loggers

end FileClerk.Log
