import FileClerk.Collection.Basic
import FileClerk.Command.Destination
import FileClerk.Command.NameTerm
import FileClerk.Log.Row
import FileClerk.Settings.Interpreter
import FileClerk.Suggestion

/-!
# Interpreter

Turns a command into an answer over a collection of files. The command is trimmed and put into
lower case, what it says is read from it once, and its intents are tried in a fixed order: moving,
searching, sorting, finding duplicates. The first intent that applies gives the answer. A search
that names no criterion leaves the command to a later intent if there is one. A command without any
intent is answered with guidance, and a blank one with the files as they are.

Nothing is moved: an answer lists the files and names the folder they would go to.
-/

set_option autoImplicit false

namespace FileClerk

open FileClerk.Text FileClerk.Command FileClerk.Collection

/-! ## Answers -/

/-- What is to be done with the files of an answer, as `Action` lists it. -/
inductive Action where
  | none
  | filter
  | move
  | unknown
  deriving DecidableEq, Repr

/-- The name of an action. -/
def Action.name : Action → String
  | .none => "none"
  | .filter => "filter"
  | .move => "move"
  | .unknown => "unknown"

/-- The answer to a command, `CommandResult`. -/
structure Answer where
  files : List Record
  action : Action
  message : Option String
  folder : Option String
  deriving DecidableEq, Repr

namespace Answer

/-- The mapping of `to_dict`, with the files as given. -/
def toValueWith (files : List Value) (a : Answer) : Value :=
  .ofFields ([("action", .text a.action.name), ("message", (a.message.map Value.text).getD .null),
    ("files", .list files)] ++ (a.folder.map fun f => [("target_folder", Value.text f)]).getD [])

/-- The mapping of `to_dict`. -/
def toValue (a : Answer) : Value := a.toValueWith (a.files.map Record.toValue)

end Answer

/-! ## Readings of commands -/

/-- What a command says, `CommandEntities`: its type words in order, its size threshold, the folder
that it names and its intents. -/
structure Reading where
  typeWords : List String
  threshold : Option Threshold
  folder : Option String
  intents : List Intent
  deriving DecidableEq, Repr

/-- An interpreter with its settings, its clock and its catalogue of file types,
`CommandInterpreter`. -/
structure Interpreter where
  settings : InterpreterSettings
  clock : Moment
  catalogue : Catalogue

/-- The text in which words are looked for: `command` trimmed and in lower case. -/
def normalized (command : String) : List Char := lower (trim command.toList)

/-- The function `extract`: what `command` says. Words are looked for in `text`, and folders in
`command` itself. -/
def Interpreter.read (i : Interpreter) (command : String) (text : List Char) :
    Except CommandFault Reading := do
  let found := intents text
  let typeText := stripDestination (found.contains .move) text
  let threshold ← sizeThreshold text
  return {
    typeWords := typeWords typeText i.catalogue.vocabulary
    threshold
    folder := (namedFolder? (trim command.toList)).map String.ofList
    intents := found }

/-! ## Moving -/

/-- The constant `NO_MATCH_MESSAGE`, the message of an answer that moves nothing. -/
def noMatchMessage : String := "No files matching your criteria were found"

/-- The constant `GENERATED_FOLDER_PREFIX`, what generated folder names start with. -/
def generatedStart : String := "Organized_"

/-- The function `default_folder_name`: the default folder of `words`, or one named for the moment
`clock`. -/
def defaultFolder (catalogue : Catalogue) (words : List String) (clock : Moment) : String :=
  match catalogue.folderFor? words with
  | some folder => if folder.isEmpty then generatedStart ++ clock.stamp else folder
  | none => generatedStart ++ clock.stamp

/-- The function `_move`: the answer that moves the files of the named types and sizes. -/
def Interpreter.move (i : Interpreter) (r : Reading) (files : List Record) : Answer :=
  let chosen := withSize r.threshold (withTypes (i.catalogue.expand r.typeWords) files)
  if chosen.isEmpty then ⟨files, .none, some noMatchMessage, none⟩
  else
    let folder := r.folder.getD (defaultFolder i.catalogue r.typeWords i.clock)
    ⟨chosen, .move, some s!"Moving {chosen.length} file(s) to folder '{folder}'", some folder⟩

/-! ## Searching -/

/-- The function `_vague_threshold`: the threshold that `largeWords` and `smallWords` stand for. -/
def Interpreter.vagueThreshold (i : Interpreter) (text : List Char) : Option Threshold :=
  if containsAny text largeWords then some ⟨.greater, i.settings.largeBytes⟩
  else if containsAny text smallWords then some ⟨.less, i.settings.smallBytes⟩
  else none

/-- Whether `text` asks for the newest files (`true`) or the oldest ones (`false`). -/
def recency? (text : List Char) : Option Bool :=
  if containsAny text recentWords then some true
  else if containsAny text oldWords then some false
  else none

/-- How many of the newest or oldest files are kept; `allWord` lifts the limit. -/
def Interpreter.recencyLimit (i : Interpreter) (text : List Char) : Option Int :=
  if containsWord text allWord then none else some i.settings.recentLimit

/-- The criteria that `_filter` goes by. -/
structure Criteria where
  extensions : Option (List String)
  threshold : Option Threshold
  recency : Option Bool
  limit : Option Int
  term : Option (List Char)

/-- The criteria that a search with the text `text` names. -/
def Interpreter.criteria (i : Interpreter) (text : List Char) (r : Reading) : Criteria where
  extensions := if r.typeWords.isEmpty then none else some (i.catalogue.expand r.typeWords)
  threshold := r.threshold.or (i.vagueThreshold text)
  recency := recency? text
  limit := i.recencyLimit text
  term := nameTerm? text

namespace Criteria

/-- No criterion is named: `has_criteria` stays false. -/
def isEmpty (c : Criteria) : Bool :=
  c.extensions.isNone && c.threshold.isNone && c.recency.isNone && c.term.isNone

/-- The newest or oldest of `files`, if the search asks for them. -/
def chooseRecent (c : Criteria) (files : List Record) : Except CommandFault (List Record) :=
  match c.recency with
  | none => .ok files
  | some newestFirst => byRecency newestFirst c.limit files

/-- The files that meet the criteria: first types and sizes, then the newest or oldest of those,
then names. -/
def apply (c : Criteria) (files : List Record) : Except CommandFault (List Record) := do
  let chosen := withSize c.threshold (withTypes (c.extensions.getD []) files)
  let recent ← c.chooseRecent chosen
  return withName c.term recent

end Criteria

/-- The function `_filter`: the answer to a search, or nothing if it names no criterion and a later
intent can answer. -/
def Interpreter.filter (i : Interpreter) (text : List Char) (r : Reading) (files : List Record) :
    Except CommandFault (Option Answer) := do
  let criteria := i.criteria text r
  let chosen ← criteria.apply files
  if criteria.isEmpty && r.intents.getLast? != some .filter then return none
  else
    let message := s!"Found {chosen.length} file(s) matching your criteria"
    return some ⟨chosen, .filter, some message, none⟩

/-! ## Sorting and duplicates -/

/-- The name of the loggers of this module. -/
def interpreterLogger : String := "file_commands.interpreter.processor"

/-- The function `_sort`: the answer that sorts the files of the named types. -/
def Interpreter.sort (i : Interpreter) (text : List Char) (r : Reading) (files : List Record) :
    Except CommandFault Answer := do
  let (key, descending) := chooseSortKey text
  let ordered ← sorted key descending (withTypes (i.catalogue.expand r.typeWords) files)
  return ⟨ordered, .filter, some s!"Sorted {ordered.length} file(s)", none⟩

/-- The row that `_sort` writes. -/
def sortRow (text : List Char) : Log.Row :=
  let (key, descending) := chooseSortKey text
  let keyName := (key.map SortKey.label).getD "none"
  let direction := if descending then "True" else "False"
  ⟨.debug, interpreterLogger, s!"Sort key: {keyName}, descending={direction}", []⟩

/-- The function `_duplicates`: the answer that lists possible duplicates. -/
def findDuplicates (files : List Record) : Answer :=
  let found := duplicates files
  ⟨found, .filter, some s!"Found {found.length} potential duplicate files", none⟩

/-! ## Commands -/

/-- The answer that `intent` gives, if it applies: the branch of `process` for it. -/
def Interpreter.answer (i : Interpreter) (text : List Char) (r : Reading) (files : List Record) :
    Intent → Except CommandFault (Option Answer)
  | .move => .ok (some (i.move r files))
  | .filter => i.filter text r files
  | .sort => (i.sort text r files).map some
  | .duplicates => .ok (some (findDuplicates files))

/-- The loop of `process` over intents: the first one that applies, with its answer. -/
def Interpreter.firstAnswer (i : Interpreter) (text : List Char) (r : Reading)
    (files : List Record) : List Intent → Except CommandFault (Option (Intent × Answer))
  | [] => .ok none
  | intent :: rest => do
    match ← i.answer text r files intent with
    | some answer => return some (intent, answer)
    | none => i.firstAnswer text r files rest

/-- An answer with the log rows that were written on the way to it. -/
structure Outcome where
  answer : Answer
  log : List Log.Row

/-- The row that `process` writes before a command is read. -/
def startRow (text : List Char) (files : List Record) : Log.Row :=
  ⟨.debug, interpreterLogger,
    s!"Processing command: {quoted (String.ofList text)} over {files.length} file(s)", []⟩

/-- The row that `process` writes about a command that is not understood. -/
def unknownRow (text : List Char) : Log.Row :=
  ⟨.info, interpreterLogger, s!"Command not understood: {quoted (String.ofList text)}",
    [("intent", .text (intentName none))]⟩

/-- The row that `process` writes about an answer. -/
def answerRow (intent : Intent) (a : Answer) : Log.Row :=
  ⟨.info, interpreterLogger, a.message.getD "None",
    [("intent", .text intent.name), ("action", .text a.action.name),
      ("file_count", .int a.files.length)]⟩

/-- The rows about the answer `a` of `intent`, that of a sort first. -/
def answerRows (text : List Char) (intent : Intent) (a : Answer) : List Log.Row :=
  (if intent == .sort then [sortRow text] else []) ++ [answerRow intent a]

/-- The run of `process` on `command` and `files`, with the rows of its log. -/
def Interpreter.run (i : Interpreter) (command : Option String) (files : List Record) :
    Except CommandFault Outcome := do
  let command := command.getD ""
  let text := normalized command
  if text.isEmpty then return ⟨⟨files, .none, none, none⟩, []⟩
  else
    let reading ← i.read command text
    match ← i.firstAnswer text reading files reading.intents with
    | some (intent, answer) =>
      return ⟨answer, startRow text files :: answerRows text intent answer⟩
    | none =>
      return ⟨⟨files, .unknown, some (Suggestion.help Suggestion.helpExamples), none⟩,
        [startRow text files, unknownRow text]⟩

/-- The function `process`: the answer to `command` over `files`. -/
def Interpreter.process (i : Interpreter) (command : Option String) (files : List Record) :
    Except CommandFault Answer := (i.run command files).map (·.answer)

/-- The interpreter with given settings and clock. Without a catalogue of its own it has the
standard one with the extra types of the settings. -/
def Interpreter.ofSettings (settings : InterpreterSettings) (clock : Moment)
    (catalogue : Option Catalogue) : Interpreter :=
  ⟨settings, clock, catalogue.getD settings.catalogue⟩

end FileClerk
