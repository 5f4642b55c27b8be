import FileClerk.Record

/-!
# Catalogue of file types

A catalogue says which extensions a type word covers and which folder files of a type go to when a
command names none. Words keep their order, which is the order in which equal claims are settled.
The extensions of a word and the words of a folder are used as sets.
-/

set_option autoImplicit false

namespace FileClerk

/-- Type words with their extensions, and folders with the words that lead to them; this is
`TypeExpansionTable`. -/
structure Catalogue where
  expansions : List (String × List String)
  folders : List (String × List String)
  version : Nat
  deriving DecidableEq, Repr

namespace Catalogue

/-- The extensions of `DOCUMENT_EXTENSIONS`. -/
def documentExtensions : List String :=
  ["pdf", "doc", "docx", "txt", "rtf", "odt", "xlsx", "pptx"]

/-- The extensions of `IMAGE_EXTENSIONS`. -/
def imageExtensions : List String := ["jpg", "jpeg", "png", "gif", "svg", "webp"]

/-- The extensions of `VIDEO_EXTENSIONS`. -/
def videoExtensions : List String := ["mp4", "mov", "avi", "mkv", "webm"]

/-- The extensions of `AUDIO_EXTENSIONS`. -/
def audioExtensions : List String := ["mp3", "wav", "ogg", "flac", "aac"]

/-- The type words of `_default_expansions`, in their order. -/
def standardExpansions : List (String × List String) :=
  [("document", documentExtensions), ("doc", ["doc", "docx"]), ("pdf", ["pdf"]),
    ("text", ["txt", "rtf"]), ("txt", ["txt"]),
    ("image", imageExtensions), ("picture", imageExtensions), ("photo", imageExtensions),
    ("screenshot", imageExtensions), ("jpg", ["jpg", "jpeg"]), ("jpeg", ["jpg", "jpeg"]),
    ("png", ["png"]), ("gif", ["gif"]),
    ("video", videoExtensions), ("movie", videoExtensions), ("mp4", ["mp4"]),
    ("audio", audioExtensions), ("music", audioExtensions), ("mp3", ["mp3"]), ("wav", ["wav"])]

/-- The folders of `_default_folders`; the first one that shares a word wins. -/
def standardFolders : List (String × List String) :=
  [("Screenshots", ["screenshot", "image", "jpg", "png"]),
    ("Documents", ["document", "pdf", "doc"]),
    ("Videos", ["video", "mp4"])]

/-- The catalogue known without any settings, `TYPE_TABLE`. -/
def standard : Catalogue := ⟨standardExpansions, standardFolders, 1⟩

/-- The keys of `c.expansions` in order. -/
def vocabulary (c : Catalogue) : List String := c.expansions.map (·.1)

/-- The extensions listed in `c.expansions` for `word`, which is used as it is. -/
def listed? (c : Catalogue) (word : String) : Option (List String) := c.expansions.lookup word

/-- The extensions that `word` covers: those listed for its lower-case form, and for an unknown word
that form itself. -/
def covered (c : Catalogue) (word : String) : List String :=
  (c.listed? (lowered word)).getD [lowered word]

/-- The extensions that some of `words` cover, as in `expand`; repeated ones stay. -/
def expand (c : Catalogue) (words : List String) : List String := words.flatMap c.covered

/-- The first folder in `c.folders` one of whose words is among the lower-case forms of `words`, as
in `folder_for`. -/
def folderFor? (c : Catalogue) (words : List String) : Option String :=
  (c.folders.find? fun (_, triggers) => words.any fun w => triggers.contains (lowered w)).map (·.1)

/-- The entries with `extensions` in place of those of `word`, or added at the end. -/
def setEntry (word : String) (extensions : List String) :
    List (String × List String) → List (String × List String)
  | [] => [(word, extensions)]
  | (w, old) :: rest =>
    if w == word then (w, extensions) :: rest else (w, old) :: setEntry word extensions rest

/-- The catalogue `c` with the entries of `extra` set one after another, words in lower case and
extensions in normal form, as in `with_extra`. -/
def withExtra (c : Catalogue) (extra : List (String × List String)) : Catalogue :=
  { c with expansions := extra.foldl (fun entries (word, extensions) =>
      setEntry (lowered word) (extensions.map normalExtension) entries) c.expansions }

end Catalogue

end FileClerk
