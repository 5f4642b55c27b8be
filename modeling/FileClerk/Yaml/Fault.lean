import FileClerk.Value.Shown

/-!
# Failures of YAML texts

Why a text in YAML has no value. Most failures are those of its form. The others lie in single
scalars whose kind promises more than their text keeps.
-/

set_option autoImplicit false

namespace FileClerk.Yaml

open FileClerk.Number FileClerk.Text

/-- Why a text has no value. -/
inductive Fault where
  | malformed
  | endless
  | noCharacter (code : Nat)
  | emptyNumber
  | notAnInteger (text : String) (fault : LiteralFault)
  | notANumber (text : String)
  | hugeFactor
  | notATruthValue (text : String)
  | notATime
  | timeOfMapping
  | offsetOutOfRange (offset : Int)
  | outOfRange (reason : String)
  deriving DecidableEq, Repr

namespace Fault

/-- The greatest code that is looked up at all. -/
def maxCode : Nat := 0x7fffffff

/-- The kind of a failure. -/
def kindName : Fault → String
  | malformed => "YAMLError"
  | endless => "RecursionError"
  | noCharacter code => if code ≤ maxCode then "ValueError" else "OverflowError"
  | emptyNumber => "IndexError"
  | hugeFactor => "OverflowError"
  | notATruthValue _ => "KeyError"
  | notATime => "AttributeError"
  | timeOfMapping => "TypeError"
  | _ => "ValueError"

/-- The text of a failure. -/
def message : Fault → String
  | malformed => "Invalid configuration file"
  | endless => "maximum recursion depth exceeded"
  | noCharacter code =>
    if code ≤ maxCode then "chr() arg not in range(0x110000)"
    else "Python int too large to convert to C int"
  | emptyNumber => "string index out of range"
  | notAnInteger text fault => fault.message (quoted text)
  | notANumber text => "could not convert string to float: " ++ quoted text
  | hugeFactor => "int too large to convert to float"
  | notATruthValue text => quoted text
  | notATime => "'NoneType' object has no attribute 'groupdict'"
  | timeOfMapping => "expected string or bytes-like object, got 'list'"
  | offsetOutOfRange offset =>
    "offset must be a timedelta strictly between -timedelta(hours=24) and timedelta(hours=24), not "
      ++ Value.shownSpan offset ++ "."
  | outOfRange reason => reason

end Fault

/-- What a reader without causes of its own finds, or else a malformed text. -/
def orMalformed {α : Type} (found : Option α) : Except Fault α :=
  match found with
  | some a => .ok a
  | none => .error .malformed

end FileClerk.Yaml
