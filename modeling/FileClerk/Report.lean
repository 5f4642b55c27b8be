import FileClerk.Value.Shown

/-!
# Error reports

The structured errors of this library. A report has a kind, a message, a numbered code, details in
order, and the failure that caused it, if another one did. Its text names the code, then gives the
message, the details if there are any, and the cause.

A report may be made with details of any kind, but further details can only be set in a mapping.
-/

set_option autoImplicit false

namespace FileClerk

/-- The codes of `ErrorCode`. -/
inductive ErrorCode where
  | unknown
  | configuration
  | directoryNotFound
  | notADirectory
  | scanFailed
  | invalidRecord
  deriving DecidableEq, Repr

namespace ErrorCode

/-- All codes in the order of their numbers. -/
def all : List ErrorCode :=
  [unknown, configuration, directoryNotFound, notADirectory, scanFailed, invalidRecord]

/-- The number of a code: general codes from 1000 on, codes of collections from 1100 on. -/
def number : ErrorCode → Nat
  | unknown => 1000
  | configuration => 1001
  | directoryNotFound => 1100
  | notADirectory => 1101
  | scanFailed => 1102
  | invalidRecord => 1103

/-- The name of a code. -/
def name : ErrorCode → String
  | unknown => "UNKNOWN_ERROR"
  | configuration => "CONFIGURATION_ERROR"
  | directoryNotFound => "DIRECTORY_NOT_FOUND"
  | notADirectory => "NOT_A_DIRECTORY"
  | scanFailed => "SCAN_FAILED"
  | invalidRecord => "INVALID_RECORD"

end ErrorCode

/-- The families of reports, `FileCommandsError` and those below it. -/
inductive ReportKind where
  | general
  | configuration
  | scan
  | invalidRecord
  deriving DecidableEq, Repr

/-- The name of a family. -/
def ReportKind.name : ReportKind → String
  | .general => "FileCommandsError"
  | .configuration => "ConfigurationError"
  | .scan => "ScanError"
  | .invalidRecord => "InvalidRecordError"

/-- The failure behind a report: its kind and its text. -/
structure Cause where
  kind : String
  text : String
  deriving DecidableEq, Repr

/-- A structured error, `FileCommandsError`. The details are a value that is not empty, or the empty
mapping. -/
structure Report where
  kind : ReportKind
  message : String
  code : ErrorCode
  details : Value
  cause : Option Cause
  deriving BEq, Repr

/-- Why a detail cannot be set. -/
inductive DetailFault where
  | list
  | kind (name : String)
  deriving DecidableEq, Repr

/-- The text of a failure. -/
def DetailFault.message : DetailFault → String
  | list => "list indices must be integers or slices, not str"
  | kind name => "'" ++ name ++ "' object does not support item assignment"

namespace Report

/-- The mapping `details` with a further one. -/
def setDetail (details : Value) (detail : String × Value) : Except DetailFault Value :=
  match details.front with
  | .map entries => .ok (.map (Value.insert (.text detail.1) detail.2 entries))
  | .list _ => .error .list
  | _ => .error (.kind details.kindName)

/-- A report of `kind` with `details` and `further` ones to be set in them; empty details are as
good as none. -/
def make (kind : ReportKind) (message : String) (code : ErrorCode) (details : Value)
    (further : List (String × Value)) (cause : Option Cause) : Except DetailFault Report := do
  let details ← further.foldlM setDetail details
  return ⟨kind, message, code, if details.holds then details else .map [], cause⟩

/-- The mapping of texts as details. -/
def textDetails (texts : List (String × String)) : Value :=
  .ofFields (texts.map fun (name, s) => (name, .text s))

/-- A `ConfigurationError` about a settings value. -/
def configuration (message : String) (details : List (String × String)) (cause : Option Cause) :
    Report :=
  ⟨.configuration, message, .configuration, textDetails details, cause⟩

/-- A `ScanError` about a directory that gives no collection. -/
def scan (message directory : String) (code : ErrorCode) (cause : Option Cause) : Report :=
  ⟨.scan, message, code, textDetails [("directory", directory)], cause⟩

/-- An `InvalidRecordError` about the value of `field`. -/
def invalidRecord (message field : String) (value : Value) : Report :=
  ⟨.invalidRecord, message, .invalidRecord,
    .ofFields [("field", .text field), ("value", value)], none⟩

/-- The report as one line of text. -/
def text (r : Report) : String :=
  "[" ++ r.code.name ++ "] " ++ r.message
    ++ (if r.details.holds then " | Details: " ++ r.details.plain else "")
    ++ (r.cause.map fun c => " | Caused by: " ++ c.kind ++ ": " ++ c.text).getD ""

/-- The mapping of `to_dict`. -/
def toValue (r : Report) : Value :=
  .ofFields [("error_type", .text r.kind.name), ("message", .text r.message),
    ("error_code", .int r.code.number), ("error_name", .text r.code.name),
    ("details", r.details),
    ("cause", (r.cause.map fun c => Value.text c.text).getD .null)]

end Report

end FileClerk
