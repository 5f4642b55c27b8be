import FileClerk.Interpreter
import FileClerk.Number.Binary64

/-!
# Answers for readers

An answer as lines of text: its message, its action, the folder that files would go to, and one line
for each file with its name, its size and its time of modification.

A size is shown in bytes below one kilobyte, and with one decimal place in the largest binary unit
up to gigabytes otherwise. It is first rounded to a binary number, and the place is rounded from the
exact value of that number, a tie to the even digit.
-/

set_option autoImplicit false

namespace FileClerk.Rendering

open FileClerk.Text FileClerk.Number

/-- The failure to show a size that is beyond the range of binary numbers. -/
inductive SizeFault where
  | outOfRange
  deriving DecidableEq, Repr

/-- The kind of a failure. -/
def SizeFault.kindName : SizeFault → String
  | outOfRange => "OverflowError"

/-- The text of a failure. -/
def SizeFault.message : SizeFault → String
  | outOfRange => "int too large to convert to float"

/-- The size `num / den` in bytes, in the unit that it is shown in: the loop of `_format_size`. -/
def sizeText (num : Int) (den : Nat) : String :=
  let n := num.natAbs
  if num < 0 then "-" ++ toString (roundHalfEven n den) ++ " B"
  else if n < 1024 * den then toString (roundHalfEven n den) ++ " B"
  else if n < 1024 * 1024 * den then oneDecimal n (den * 1024) ++ " KB"
  else if n < 1024 * 1024 * 1024 * den then oneDecimal n (den * 1024 * 1024) ++ " MB"
  else oneDecimal n (den * 1024 * 1024 * 1024) ++ " GB"

/-- The function `_format_size`: a size in bytes as it is shown. -/
def formatSize (size : Int) : Except SizeFault String :=
  match (Binary64.ofInt size).ratio? with
  | some (num, den) => .ok (sizeText num den)
  | none => .error .outOfRange

/-- The line of `render_text` for the file `r`. -/
def fileLine (r : Record) : Except SizeFault String := do
  let size ← formatSize r.size
  return "  " ++ padRight 40 r.name ++ " " ++ padLeft 10 size ++ "  " ++ r.modified.listed

/-- The lines of the files of `a`; an answer to a command that is not understood has none. -/
def fileLines (a : Answer) : Except SizeFault (List String) :=
  if a.action == .unknown then .ok []
  else do
    let lines ← a.files.mapM fileLine
    return "" :: lines

/-- The lines above the files of `a`. An empty message or folder is left out. -/
def headLines (a : Answer) : List String :=
  (a.message.toList.filter (· != "")) ++ ["Action: " ++ a.action.name]
    ++ (a.folder.toList.filter (· != "")).map ("Target folder: " ++ ·)

/-- The function `render_text`: the answer as text. -/
def render (a : Answer) : Except SizeFault String := do
  let files ← fileLines a
  return "\n".intercalate (headLines a ++ files)

end FileClerk.Rendering
