import FileClerk.Number.Literal
import FileClerk.Report

/-!
# Failures of settings

Why a value is not taken as a setting. Some failures are reported with a code; the others say only
that a value has the wrong kind.
-/

set_option autoImplicit false

namespace FileClerk

open FileClerk.Number FileClerk.Text

/-- Why a value is not an integer. -/
inductive IntegerFault where
  | kind (name : String)
  | literal (shown : String) (fault : LiteralFault)
  | nan
  | infinite
  deriving DecidableEq, Repr

namespace IntegerFault

/-- The kind of a failure. -/
def kindName : IntegerFault → String
  | kind _ => "TypeError"
  | literal _ _ => "ValueError"
  | nan => "ValueError"
  | infinite => "OverflowError"

/-- The text of a failure. -/
def message : IntegerFault → String
  | kind name =>
    "int() argument must be a string, a bytes-like object or a real number, not '" ++ name ++ "'"
  | literal shown fault => fault.message shown
  | nan => "cannot convert float NaN to integer"
  | infinite => "cannot convert float infinity to integer"

end IntegerFault

/-- Bytes as characters of a literal; a byte outside of ASCII is none. -/
def literalChars (bytes : List UInt8) : List Char :=
  bytes.map fun byte => if byte < 128 then Char.ofNat byte.toNat else '?'

/-- The integer that a value stands for: a number toward zero, a truth value as one or zero, a text
or bytes as an integer literal. -/
def Value.toInteger : Value → Except IntegerFault Int
  | .bool b => .ok (if b then 1 else 0)
  | .int n => .ok n
  | .float .nan => .error .nan
  | .float (.infinite _) => .error .infinite
  | .float x => .ok (x.truncate?.getD 0)
  | .text s => (integerIn 10 s.toList).mapError (.literal (quoted s))
  | .bytes b => (integerIn 10 (literalChars b)).mapError (.literal (quotedBytes b))
  | value => .error (.kind value.kindName)

/-- Why a value is not taken as settings. -/
inductive SettingsFault where
  | notAnInteger (key : String) (value : Value) (fault : IntegerFault)
  | notPositive (key : String) (value : Int)
  | extraTypesNotMapping
  | topLevelNotMapping (path : String)
  | noSection (kind : String)
  | notIterable (kind : String)
  | integer (fault : IntegerFault)
  | notAPath (kind : String)
  | bytesPath
  | noHome
  | tooLong
  deriving BEq, Repr

namespace SettingsFault

/-- The `ConfigurationError` about a failure, for the failures that have one. -/
def report? : SettingsFault → Option Report
  | notAnInteger key value fault =>
    some (.configuration ("'" ++ key ++ "' must be an integer, got " ++ value.shown)
      [("config_key", key), ("expected_type", "int")] (some ⟨fault.kindName, fault.message⟩))
  | notPositive key value =>
    some (.configuration ("'" ++ key ++ "' must be positive, got " ++ toString value)
      [("config_key", key)] none)
  | extraTypesNotMapping =>
    some (.configuration "'extra_types' must map type words to extension lists"
      [("config_key", "extra_types"), ("expected_type", "mapping")] none)
  | topLevelNotMapping path =>
    some (.configuration ("Top level of " ++ path ++ " must be a mapping")
      [("expected_type", "mapping")] none)
  | _ => none

/-- The kind of a failure that has no report. -/
def kindName : SettingsFault → String
  | noSection _ => "AttributeError"
  | integer fault => fault.kindName
  | noHome => "RuntimeError"
  | notIterable _ => "TypeError"
  | notAPath _ => "TypeError"
  | bytesPath => "TypeError"
  | tooLong => "ValueError"
  | _ => ReportKind.configuration.name

/-- The text of a failure. -/
def message (fault : SettingsFault) : String :=
  match fault with
  | noSection kind => "'" ++ kind ++ "' object has no attribute 'get'"
  | notIterable kind => "'" ++ kind ++ "' object is not iterable"
  | integer fault => fault.message
  | notAPath kind => "expected str, bytes or os.PathLike object, not " ++ kind
  | bytesPath =>
    "argument should be a str object or an os.PathLike object returning str, not <class 'bytes'>"
  | tooLong => tooLongMessage
  | noHome => "Could not determine home directory."
  | _ => (fault.report?.map Report.text).getD ""

end SettingsFault

end FileClerk
