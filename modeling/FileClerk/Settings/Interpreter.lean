import FileClerk.Catalogue
import FileClerk.Settings.Fault

/-!
# Settings of the interpreter

How many files a search for the newest or oldest ones keeps, which sizes count as large and small,
and further type words. The three numbers are positive. A missing setting has its default, and so
has every setting if the section is empty.
-/

set_option autoImplicit false

namespace FileClerk

/-- The settings of the interpreter, `InterpreterConfig`. -/
structure InterpreterSettings where
  recentLimit : Nat := 10
  largeBytes : Nat := 5242880
  smallBytes : Nat := 1048576
  extraTypes : List (String × List String) := []
  recentLimit_pos : 0 < recentLimit := by decide
  largeBytes_pos : 0 < largeBytes := by decide
  smallBytes_pos : 0 < smallBytes := by decide
  deriving DecidableEq, Repr

/-- The items of a value that can be gone through: of a collection its items, of a text its
characters, of bytes their numbers, of a mapping its keys. -/
def Value.items? (value : Value) : Option (List Value) :=
  match value.front with
  | .list items => some items
  | .tuple items => some items
  | .set items => some items
  | .text s => some (s.toList.map fun c => .text (String.singleton c))
  | .bytes b => some (b.map fun byte => .int byte.toNat)
  | .map entries => some (entries.map (·.1))
  | _ => none

/-- The entries of a section of the settings; an empty value is a section without entries. -/
def Value.section? (value : Value) : Except SettingsFault (List (Value × Value)) :=
  match value.front with
  | .map entries => .ok entries
  | _ => if value.holds then .error (.noSection value.kindName) else .ok []

/-- The text of a value where a setting is a text. -/
def Value.settingText (value : Value) : Except SettingsFault String :=
  if value.isShowable then .ok value.plain else .error .tooLong

namespace InterpreterSettings

/-- A failure about a value that has no text is one about its text. -/
def failWith (shown : Value) (fault : SettingsFault) : SettingsFault :=
  if shown.isShowable then fault else .tooLong

/-- The function `_positive_int`: the positive integer under `key`. A failure to read it is
reported, except for an infinite number. -/
def positive? (key : String) (default : Nat) (entries : List (Value × Value)) :
    Except SettingsFault { n : Nat // 0 < n } :=
  let value := (Value.find? key entries).getD (.int default)
  match value.toInteger with
  | .error .infinite => .error (.integer .infinite)
  | .error fault => .error (failWith value (.notAnInteger key value fault))
  | .ok n =>
    if h : 0 < n.toNat then .ok ⟨n.toNat, h⟩
    else .error (failWith (.int n) (.notPositive key n))

/-- The entry of a further type word; extensions of any kind are taken as texts. -/
def extraEntry (entry : Value × Value) : Except SettingsFault (String × List String) := do
  let word ← entry.1.settingText
  match entry.2.items? with
  | some items => return (word, ← items.mapM Value.settingText)
  | none => .error (.notIterable entry.2.kindName)

/-- The further type words under `extra_types`, in order; a repeated word keeps its place and has
the last extensions. -/
def extraTypes? (entries : List (Value × Value)) :
    Except SettingsFault (List (String × List String)) := do
  let pairs ← entries.mapM extraEntry
  return pairs.foldl (fun acc (word, extensions) => Catalogue.setEntry word extensions acc) []

/-- The entries under `extra_types`; an empty value of any kind has none. -/
def extraEntries? (entries : List (Value × Value)) :
    Except SettingsFault (List (Value × Value)) :=
  match Value.find? "extra_types" entries with
  | none => .ok []
  | some value =>
    match value.front with
    | .map extra => .ok extra
    | _ => if value.holds then .error .extraTypesNotMapping else .ok []

/-- The function `from_dict`: the settings in a section. -/
def ofValue (value : Value) : Except SettingsFault InterpreterSettings := do
  let entries ← value.section?
  let extra ← extraEntries? entries
  let recent ← positive? "recent_limit" 10 entries
  let large ← positive? "large_file_bytes" 5242880 entries
  let small ← positive? "small_file_bytes" 1048576 entries
  let extraTypes ← extraTypes? extra
  return ⟨recent.1, large.1, small.1, extraTypes, recent.2, large.2, small.2⟩

/-- The section that `save` writes. -/
def toValue (s : InterpreterSettings) : Value :=
  .ofFields [("recent_limit", .int s.recentLimit), ("large_file_bytes", .int s.largeBytes),
    ("small_file_bytes", .int s.smallBytes),
    ("extra_types", .ofFields (s.extraTypes.map fun (word, extensions) =>
      (word, .list (extensions.map Value.text))))]

/-- The catalogue `Catalogue.standard` with the further type words. -/
def catalogue (s : InterpreterSettings) : Catalogue :=
  if s.extraTypes.isEmpty then .standard else Catalogue.standard.withExtra s.extraTypes

end InterpreterSettings

end FileClerk
