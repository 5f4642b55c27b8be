import FileClerk.Report
import FileClerk.Text.Case

/-!
# File records

A record describes one file of a collection. Its extension is in normal form: in lower case and
without leading dots. A negative size is refused.
-/

set_option autoImplicit false

namespace FileClerk

open FileClerk.Text

/-- The lower-case form of `s`. -/
def lowered (s : String) : String := String.ofList (lower s.toList)

/-- The form of an extension in lower case and without leading dots, as `FileRecord` keeps it. -/
def normalExtension (s : String) : String :=
  String.ofList ((lower s.toList).dropWhile (· == '.'))

/-- The description of one file, `FileRecord`. -/
structure Record where
  id : String
  name : String
  extension : String
  size : Nat
  modified : Moment
  path : String
  deriving DecidableEq, Repr

namespace Record

/-- A record with `normalExtension extension`; a negative size is refused with
`Report.invalidRecord`. -/
def make (id name extension : String) (size : Int) (modified : Moment) (path : String) :
    Except Report Record :=
  if size < 0 then
    .error (.invalidRecord ("size_bytes must be non-negative for " ++ quoted name) "size_bytes"
      (.int size))
  else .ok ⟨id, name, normalExtension extension, size.toNat, modified, path⟩

/-- The mapping of `to_dict`. -/
def toValue (r : Record) : Value :=
  .ofFields [("id", .text r.id), ("name", .text r.name), ("extension", .text r.extension),
    ("size_bytes", .int r.size), ("modified_at", .text r.modified.text), ("path", .text r.path)]

end Record

end FileClerk
