import FileClerk.Report
import FileClerk.Scan.Tree

/-!
# Failures of scans

A scan that finds no directory to list, or cannot list it, fails with a `Report`. The other failures
of `ScanFault` come without one: the directory is out of reach, it lies too deep, a pattern is no
text, a file time has no moment, or a path names the home directory of an unknown user. A single
file is not described if it is out of reach, if its time has no moment, or if it lies outside of the
directory it should lie in.
-/

set_option autoImplicit false

namespace FileClerk.Scan

open FileClerk.Text

/-- Why a scan gives no records. -/
inductive ScanFault where
  | noDirectory (report : Report)
  | access (fault : AccessFault) (path : Path)
  | patternKind (kind : String)
  | bytesPattern
  | fileTime (fault : FileTimeFault)
  | tooDeep
  | noHome
  | outside (path root : Path)
  deriving BEq, Repr

namespace ScanFault

/-- The report about a failure, for the failures that have one. -/
def report? : ScanFault → Option Report
  | noDirectory report => some report
  | _ => none

/-- The kind of a failure. -/
def kindName : ScanFault → String
  | noDirectory report => report.kind.name
  | access fault _ => fault.kindName
  | patternKind _ => "TypeError"
  | bytesPattern => "TypeError"
  | fileTime fault => fault.kindName
  | tooDeep => "RecursionError"
  | noHome => "RuntimeError"
  | outside _ _ => "ValueError"

/-- The text of a failure. -/
def message : ScanFault → String
  | noDirectory report => report.text
  | access fault path => fault.message path
  | bytesPattern => "cannot use a bytes pattern on a string-like object"
  | patternKind kind => "expected str, bytes or os.PathLike object, not " ++ kind
  | fileTime fault => fault.message
  | tooDeep => "maximum recursion depth exceeded"
  | noHome => "Could not determine home directory."
  | outside path root =>
    quoted path.text ++ " is not in the subpath of " ++ quoted root.text
      ++ " OR one path is relative and the other is absolute."

end ScanFault

end FileClerk.Scan
