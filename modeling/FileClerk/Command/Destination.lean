import FileClerk.Text.Basic
import FileClerk.Text.Case
import FileClerk.Text.Piece

/-!
# Destinations

A command names the folder that files go to in one of two ways. A bracket group `[Name]` names it
as written; groups do not nest and a blank one names nothing. A phrase such as "to the old invoices
folder" names it by one or two words between a preposition and "folder" or "directory"; an article
and "new" in front of the name are left out where the rest still makes a phrase.

`stripDestination` takes both out of a text, so that the name of a folder is not read as a type of
file.
-/

set_option autoImplicit false

namespace FileClerk.Command

open FileClerk.Text

/-! ## Bracket groups -/

/-- The character opens or closes a bracket group. -/
def isBracket (c : Char) : Bool := c == '[' || c == ']'

/-- The pattern `BRACKET_PATTERN` at a place: the contents of the bracket group that starts there.
-/
def bracketGroup : Reader (List Char) := fun _ s =>
  match s with
  | '[' :: rest =>
    let body := rest.takeWhile fun c => !isBracket c
    if (rest.drop body.length).head? == some ']' then some (body, body.length + 2) else none
  | _ => none

/-- The function `extract_bracket_folder`: the trimmed contents of the first bracket group that is
not blank. -/
def bracketFolder? (command : List Char) : Option (List Char) :=
  ((readings bracketGroup command).map trim).find? fun name => !name.isEmpty

/-! ## Folder phrases -/

/-- The prepositions of `FOLDER_PHRASE_PATTERN`. -/
def prepositions : List String := ["to", "into", "in"]

/-- The articles of `FOLDER_PHRASE_PATTERN`, which may stand in front of a name. -/
def articles : List String := ["a", "an", "the"]

/-- The nouns that end `FOLDER_PHRASE_PATTERN`. -/
def folderNouns : List String := ["folder", "directory"]

/-- The word that may stand in front of a name and that names nothing by itself, the one of
`_PLACEHOLDER_NAMES`. -/
def placeholder : List Char := ['n', 'e', 'w']

/-- The text `word` is one of `words` under `foldLetter`, that is, whatever its letter case. -/
def isOneOf (words : List String) (word : List Char) : Bool :=
  words.any fun w => spells w.toList word

/-- The first words of a text, at most `count`, as long as only blanks stand between them. Each word
comes with the text behind it. -/
def wordRun : Nat → List Char → List (List Char × List Char)
  | 0, _ => []
  | count + 1, s =>
    let word := s.takeWhile isWordChar
    let rest := s.dropWhile isWordChar
    if word.isEmpty then [] else (word, rest) :: wordRun count (rest.dropWhile isBlank)

/-- A name of two words in front of a noun, else a name of one word, with the text behind the noun.
This is the order in which the pattern backtracks. -/
def nameBeforeNoun? (run : List (List Char × List Char)) :
    Option (List (List Char) × List Char) :=
  match run with
  | (first, _) :: (second, rest) :: more =>
    match more with
    | (third, rest') :: _ =>
      if isOneOf folderNouns third then some ([first, second], rest')
      else if isOneOf folderNouns second then some ([first], rest)
      else none
    | [] => if isOneOf folderNouns second then some ([first], rest) else none
  | _ => none

/-- A name behind an optional `placeholder`, which is left out if a name is found behind it. -/
def nameAfterNew? (run : List (List Char × List Char)) : Option (List (List Char) × List Char) :=
  match run with
  | (first, _) :: more =>
    (if spells placeholder first then nameBeforeNoun? more else none).or (nameBeforeNoun? run)
  | [] => none

/-- A name behind an optional article and an optional `placeholder`, which are left out if a name is
found behind them. -/
def nameAfterArticle? (run : List (List Char × List Char)) :
    Option (List (List Char) × List Char) :=
  match run with
  | (first, _) :: more =>
    (if isOneOf articles first then nameAfterNew? more else none).or (nameAfterNew? run)
  | [] => none

/-- The text behind a preposition and the blanks that must follow it. -/
def afterPreposition? (s : List Char) : Option (List Char) :=
  prepositions.findSome? fun preposition =>
    match afterLetters preposition.toList s with
    | some rest => if rest.head?.any isBlank then some (rest.dropWhile isBlank) else none
    | none => none

/-- The pattern `FOLDER_PHRASE_PATTERN` at a place: the words of the name in the phrase that starts
there. -/
def folderPhrase : Reader (List (List Char)) := fun before s => do
  if before.any isWordChar then none
  else
    let rest ← afterPreposition? s
    let (words, rest) ← nameAfterArticle? (wordRun 5 rest)
    some (words, s.length - rest.length)

/-- The words of a phrase in lower case, joined by one space. -/
def phraseName (words : List (List Char)) : List Char := lower ([' '].intercalate words)

/-- A name with its first character in upper case. -/
def capitalized : List Char → List Char
  | [] => []
  | c :: rest => upperChar c ++ rest

/-- The function `extract_phrase_folder`: the name in the first folder phrase whose name is not
`placeholder`, with its first letter in upper case. -/
def phraseFolder? (command : List Char) : Option (List Char) :=
  (((readings folderPhrase command).map phraseName).find? fun name =>
    !name.isEmpty && name != placeholder).map capitalized

/-! ## The destination of a command -/

/-- The function `extract_folder_name`: the folder that a command names; `bracketFolder?` wins over
`phraseFolder?`. -/
def namedFolder? (command : List Char) : Option (List Char) :=
  (bracketFolder? command).or (phraseFolder? command)

/-- The function `strip_destination`: `text` with a space in place of each bracket group and, if
`withPhrases`, of each folder phrase that is left then. -/
def stripDestination (withPhrases : Bool) (text : List Char) : List Char :=
  let text := blankOut bracketGroup text
  if withPhrases then blankOut folderPhrase text else text

end FileClerk.Command
