import FileClerk.Cli.Basic
import FileClerk.Json.Reader
import FileClerk.Scan.Listing

/-!
# The program

The program takes its arguments from the command line and a description of the outside world from
the standard input: a JSON mapping with a listing of the directory tree under `tree`, the time under
`clock`, the home directories of users under `homes`, and the milliseconds that a scan takes under
`elapsed`. Answers go to the standard output, and messages and the log to the standard error.
-/

set_option autoImplicit false

namespace FileClerk

/-- The time that a description without one stands for. -/
def startOfTime : Moment := ⟨FileTime.epoch, none⟩

/-- The levels that a deep listing can go down. -/
def levels : Nat := 990

/-- The home directory that a description gives to a user. -/
def homeIn (description : Value) (user : String) : Option Path :=
  match (description.field? "homes").bind (Value.field? user) with
  | some (.text s) => some (Path.ofText s)
  | _ => none

/-- The world that a text describes, for a user with the given home directory. -/
def worldOf (home : String) (text : String) : Cli.World :=
  let description := (Json.parse? text).getD .null
  let clock := match description.field? "clock" with
    | some (.text s) => (Moment.ofText? s).getD startOfTime
    | _ => startOfTime
  let elapsed := match description.field? "elapsed" with
    | some (.float x) => x
    | _ => Number.Binary64.ofInt 0
  { homes := ⟨Path.ofText home, homeIn description⟩
    tree := Scan.Tree.ofListing ["work"] ((description.field? "tree").getD (.list []))
    levels
    elapsed
    clock }

/-- Writes how a run has ended, and gives its exit code. -/
def finish (clock : Moment) (outcome : Cli.Outcome) : IO UInt32 := do
  IO.print outcome.output
  match outcome.setup.checkedSession (.atTime clock "command") outcome.events with
  | .ok written => IO.eprint written.console
  | .error fault => IO.eprintln (fault.kindName ++ ": " ++ fault.message)
  for message in outcome.messages do
    IO.eprintln message
  return outcome.exitCode.toUInt32

end FileClerk

/-- Runs the program with the arguments of the command line. -/
def main (arguments : List String) : IO UInt32 := do
  let home := (← IO.getEnv "HOME").getD "/"
  let text ← (← IO.getStdin).readToEnd
  let world := FileClerk.worldOf home text
  match FileClerk.Cli.run world arguments with
  | .ok outcome => FileClerk.finish world.clock outcome
  | .error fault =>
    IO.eprintln (fault.kindName ++ ": " ++ fault.message)
    return 1
