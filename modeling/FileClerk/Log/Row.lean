import FileClerk.Value.Basic

/-!
# Log rows

A row of the log has a level, the name of the logger that wrote it, a message and further fields in
order. A further field must not have the name of one that every row has anyway.
-/

set_option autoImplicit false

namespace FileClerk.Log

open FileClerk.Number

/-- The level of a row. -/
inductive Level where
  | debug
  | info
  | warning
  | error
  | critical
  deriving DecidableEq, Repr

namespace Level

/-- All levels from the lowest to the highest. -/
def all : List Level := [debug, info, warning, error, critical]

/-- The rank of a level; rows below the rank of a logger are not written. -/
def rank : Level → Nat
  | debug => 10
  | info => 20
  | warning => 30
  | error => 40
  | critical => 50

/-- The name of a level. -/
def name : Level → String
  | debug => "DEBUG"
  | info => "INFO"
  | warning => "WARNING"
  | error => "ERROR"
  | critical => "CRITICAL"

end Level

/-- A row of the log. -/
structure Row where
  level : Level
  logger : String
  message : String
  fields : List (String × Value)
  deriving BEq, Repr

/-- The names of what every row has. -/
def reservedNames : List String :=
  ["message", "asctime", "name", "msg", "args", "levelname", "levelno", "pathname", "filename",
    "module", "exc_info", "exc_text", "stack_info", "lineno", "funcName", "created", "msecs",
    "relativeCreated", "thread", "threadName", "processName", "process"]

/-- The first further field of `row` with a name in `reservedNames`. -/
def Row.clash? (row : Row) : Option String :=
  (row.fields.map (·.1)).find? reservedNames.contains

/-- The constant `ROOT_LOGGER_NAME`, the name above all loggers of this program. -/
def rootLogger : String := "file_commands"

/-- The function `get_logger`: the full name of a logger; a name that does not start with
`rootLogger` is put below it. -/
def loggerName (name : String) : String :=
  if name == rootLogger || (rootLogger ++ ".").toList.isPrefixOf name.toList then name
  else rootLogger ++ "." ++ name

/-- The row that `Timer` writes about `operation`, with the milliseconds that it has taken. -/
def completed (logger operation : String) (elapsed : Binary64) : Row :=
  ⟨.debug, logger, "Operation completed: " ++ operation,
    [("operation", .text operation), ("duration_ms", .float elapsed)]⟩

end FileClerk.Log
