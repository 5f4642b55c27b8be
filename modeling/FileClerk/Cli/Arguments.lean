import FileClerk.Text.Quoted

/-!
# Arguments of the command line

Arguments are words of the command and options. A long option may be cut as long as it names one
option only, and its value may follow an equals sign. Short options may stand together behind one
hyphen, the last of them with its value. Two hyphens end the options; as a value in the argument of
an option they leave the option without any. The words of the command stand together; words behind a
later option are left over.
-/

set_option autoImplicit false

namespace FileClerk.Cli

open FileClerk.Text

/-! ## Options -/

/-- The options of `build_parser`. -/
inductive Opt where
  | help
  | directory
  | sample
  | config
  | json
  | suggest
  | verbose
  deriving DecidableEq, Repr

/-- The names of the options, in the order in which `build_parser` adds them. -/
def optionNames : List (String × Opt) :=
  [("-h", .help), ("--help", .help), ("--directory", .directory), ("-d", .directory),
    ("--sample", .sample), ("--config", .config), ("-c", .config), ("--json", .json),
    ("--suggest", .suggest), ("--verbose", .verbose), ("-v", .verbose)]

/-- The option is followed by a value. -/
def Opt.takesValue : Opt → Bool
  | directory => true
  | config => true
  | suggest => true
  | _ => false

/-- All names of an option. -/
def Opt.label (option : Opt) : String :=
  "/".intercalate ((optionNames.filter (·.2 == option)).map (·.1))

/-! ## Failures -/

/-- Why a list of arguments is refused. -/
inductive UsageFault where
  | ambiguous (argument : String) (names : List String)
  | missingValue (option : Opt)
  | unwantedValue (option : Opt) (value : String)
  | conflict (option other : Opt)
  | unrecognized (arguments : List String)
  | noCommand
  deriving DecidableEq, Repr

/-- The text of a failure. -/
def UsageFault.message : UsageFault → String
  | ambiguous argument names =>
    "ambiguous option: " ++ argument ++ " could match " ++ ", ".intercalate names
  | missingValue option => "argument " ++ option.label ++ ": expected one argument"
  | unwantedValue option value =>
    "argument " ++ option.label ++ ": ignored explicit argument " ++ quoted value
  | conflict option other =>
    "argument " ++ option.label ++ ": not allowed with argument " ++ other.label
  | unrecognized arguments => "unrecognized arguments: " ++ " ".intercalate arguments
  | noCommand => "a command is required"

/-! ## Words -/

/-- An argument by itself. The value of an option, or further short options, may be joined to it. -/
inductive Word where
  | plain (text : String)
  | separator
  | option (option : Opt) (isShort : Bool) (joined : Option (List Char))
  | unknown (text : String)
  deriving DecidableEq, Repr

/-- The text before the first `=` and the text behind it. -/
def splitEquals (s : List Char) : List Char × Option (List Char) :=
  let name := s.takeWhile (· != '=')
  match s.drop name.length with
  | [] => (name, none)
  | _ :: value => (name, some value)

/-- A hyphen with digits and at most one point behind it, which is a word of the command. -/
def isNegativeNumber (s : List Char) : Bool :=
  match s with
  | '-' :: rest =>
    let body := if rest.getLast? == some '\n' then rest.dropLast else rest
    let fraction := (body.dropWhile isDigit).drop 1
    (!body.isEmpty && body.all isDigit)
      || ((body.dropWhile isDigit).head? == some '.' && !fraction.isEmpty && fraction.all isDigit)
  | _ => false

/-- The options whose names start with what `s` says in front of `=`, with their names and values.
-/
def candidates (s : List Char) : List (String × Word) :=
  if s.take 2 == ['-', '-'] then
    let (name, value) := splitEquals s
    (optionNames.filter fun (full, _) => name.isPrefixOf full.toList).map fun (full, option) =>
      (full, .option option false value)
  else
    (optionNames.filter fun (full, _) => full.toList == s.take 2).map fun (full, option) =>
      (full, .option option true (some (s.drop 2)))

/-- The option with exactly the name in `argument`, perhaps with a value behind `=`. -/
def fullName? (argument : String) : Option Word :=
  let isShort := argument.toList.take 2 != ['-', '-']
  match optionNames.lookup argument with
  | some option => some (.option option isShort none)
  | none =>
    match splitEquals argument.toList with
    | (_, none) => none
    | (name, some value) =>
      (optionNames.lookup (String.ofList name)).map fun option =>
        .option option isShort (some value)

/-- What `argument` is when it stands before any `--`. -/
def word (argument : String) : Except UsageFault Word :=
  let s := argument.toList
  if s.length < 2 || s.head? != some '-' then .ok (.plain argument)
  else
    match fullName? argument with
    | some found => .ok found
    | none =>
      match candidates s with
      | [(_, found)] => .ok found
      | [] =>
        if isNegativeNumber s || s.contains ' ' then .ok (.plain argument)
        else .ok (.unknown argument)
      | several => .error (.ambiguous argument (several.map (·.1)))

/-- The arguments as words. Behind `--` every argument is a word of the command. -/
def words : List String → Except UsageFault (List Word)
  | [] => .ok []
  | argument :: rest =>
    if argument == "--" then .ok (.separator :: rest.map .plain)
    else do
      let first ← word argument
      return first :: (← words rest)

/-! ## Arguments -/

/-- The value that an option is given, which may be no text at all. -/
inductive OptValue where
  | text (s : String)
  | nothing
  deriving DecidableEq, Repr

/-- The value that is joined to an option. -/
def OptValue.ofJoined (s : List Char) : OptValue :=
  if s == ['-', '-'] then .nothing else .text (String.ofList s)

/-- What the arguments ask for. -/
structure Arguments where
  command : List String
  directory : Option OptValue
  sample : Bool
  config : Option OptValue
  json : Bool
  suggest : Option OptValue
  verbose : Bool
  help : Bool
  deriving DecidableEq, Repr

/-- No arguments. -/
def Arguments.none : Arguments := ⟨[], .none, false, .none, false, .none, false, false⟩

/-- Where the words of the command are. -/
inductive CommandPlace where
  | ahead
  | here
  | behind
  deriving DecidableEq, Repr

/-- What is known while arguments are taken: those taken so far, where the words of the command are,
an option that waits for its value with the options in front of it, and what is left over. -/
structure Taking where
  arguments : Arguments
  waiting : Option (List Opt × Opt)
  place : CommandPlace
  leftOver : List String

namespace Taking

/-- Takes `option` with its value. `Opt.directory` and `Opt.sample` exclude each other. -/
def take (option : Opt) (value : OptValue) (t : Taking) : Except UsageFault Taking :=
  let a := t.arguments
  match option with
  | .help => .ok { t with arguments := { a with help := true } }
  | .directory =>
    if a.sample then .error (.conflict .directory .sample)
    else .ok { t with arguments := { a with directory := some value } }
  | .sample =>
    if a.directory.isSome then .error (.conflict .sample .directory)
    else .ok { t with arguments := { a with sample := true } }
  | .config => .ok { t with arguments := { a with config := some value } }
  | .json => .ok { t with arguments := { a with json := true } }
  | .suggest => .ok { t with arguments := { a with suggest := some value } }
  | .verbose => .ok { t with arguments := { a with verbose := true } }

/-- Takes options without values. -/
def takeAll (options : List Opt) (t : Taking) : Except UsageFault Taking :=
  options.foldlM (fun t option => t.take option .nothing) t

/-- Takes an option, behind others in the same argument, that has no joined value. -/
def takeBare (before : List Opt) (option : Opt) (t : Taking) : Except UsageFault Taking :=
  if option.takesValue then .ok { t with waiting := some (before, option) }
  else t.takeAll (before ++ [option])

/-- Takes an option whose value, or further short options, are joined to it. -/
def takeJoined (before : List Opt) (option : Opt) (isShort : Bool) :
    List Char → Taking → Except UsageFault Taking
  | [], t =>
    if option.takesValue then do (← t.takeAll before).take option (.text "")
    else .error (.unwantedValue option "")
  | c :: rest, t =>
    if option.takesValue then do (← t.takeAll before).take option (.ofJoined (c :: rest))
    else
      match isShort, optionNames.lookup (String.ofList ['-', c]) with
      | true, some next =>
        if rest.isEmpty then t.takeBare (before ++ [option]) next
        else takeJoined (before ++ [option]) next true rest t
      | _, _ => .error (.unwantedValue option (String.ofList (c :: rest)))

/-- Takes a plain word, which may be the value of an option. -/
def takePlain (text : String) (t : Taking) : Except UsageFault Taking :=
  match t.waiting with
  | some (before, option) => do
    let t ← { t with waiting := .none }.takeAll before
    t.take option (.text text)
  | .none =>
    if t.place == .behind then .ok { t with leftOver := t.leftOver ++ [text] }
    else
      .ok { t with arguments := { t.arguments with command := t.arguments.command ++ [text] },
                   place := .here }

/-- An option ends the words of the command, once there are any: `CommandPlace.here` becomes
`CommandPlace.behind`. -/
def closeCommand (t : Taking) : Taking :=
  if t.place == .here then { t with place := .behind } else t

/-- Takes a word. -/
def takeWord (t : Taking) (word : Word) : Except UsageFault Taking :=
  match word, t.waiting with
  | .plain text, _ => t.takePlain text
  | _, some (_, option) => .error (.missingValue option)
  | .separator, .none =>
    if t.place == .behind then .ok { t with leftOver := t.leftOver ++ ["--"] }
    else .ok { t with place := .here }
  | .unknown text, .none =>
    let t := t.closeCommand
    .ok { t with leftOver := t.leftOver ++ [text] }
  | .option option _ .none, .none => t.closeCommand.takeBare [] option
  | .option option isShort (some joined), .none =>
    takeJoined [] option isShort joined t.closeCommand

/-- Takes words until there are none left or help is asked for. -/
def takeWords (t : Taking) : List Word → Except UsageFault Taking
  | [] =>
    match t.waiting with
    | some (_, option) => .error (.missingValue option)
    | .none => .ok t
  | word :: rest => do
    let t ← t.takeWord word
    if t.arguments.help then return t else takeWords t rest

end Taking

/-- What a list of arguments asks for, as the parser of `build_parser` reads it. -/
def Arguments.ofList (arguments : List String) : Except UsageFault Arguments := do
  let words ← words arguments
  let t ← (Taking.mk .none .none .ahead []).takeWords words
  if t.arguments.help || t.leftOver.isEmpty then return t.arguments
  else .error (.unrecognized t.leftOver)

end FileClerk.Cli
