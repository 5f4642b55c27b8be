import FileClerk.Record

/-!
# Keywords and intents

A keyword occurs in a command where it starts a word (`keywordPosition`): "image" occurs in
"images", and "old" does not occur in "folder". The place of a keyword is the number of characters
before its first occurrence.

An `Intent` is what a command asks for: to move files, to search for them, to sort them, or to find
duplicates. Each intent has trigger words, and the words in this module also settle how an intent is
carried out. Intents are listed in the order in which they are tried.
-/

set_option autoImplicit false

namespace FileClerk.Command

open FileClerk.Text

/-! ## Keywords -/

/-- The first place where `word` occurs and no word character stands before it. The flag tells
whether a word character stands before the text. -/
def findStart (word : List Char) : Bool → List Char → Option Nat
  | inWord, [] => if !inWord && word.isEmpty then some 0 else none
  | inWord, c :: rest =>
    if !inWord && word.isPrefixOf (c :: rest) then some 0
    else (findStart word (isWordChar c) rest).map (· + 1)

/-- The function `keyword_position`: the first place where `word`, in lower case, starts a word of
`text`. -/
def keywordPosition (text : List Char) (word : String) : Option Nat :=
  findStart (lower word.toList) false text

/-- The function `contains_any`: some word of `text` starts with one of `words`. -/
def containsAny (text : List Char) (words : List String) : Bool :=
  words.any fun word => (keywordPosition text word).isSome

/-- The text `word` starts `s`, with a word boundary on each side of it. -/
def standsAlone (word : List Char) (before : Option Char) (s : List Char) : Bool :=
  word.isPrefixOf s && isBoundary before s.head?
    && isBoundary (word.getLast?.or before) (s.drop word.length).head?

/-- The text `word` occurs with a word boundary on each side of it, after the character `before`. -/
def containsWordAfter (word : List Char) (before : Option Char) : List Char → Bool
  | [] => standsAlone word before []
  | c :: rest => standsAlone word before (c :: rest) || containsWordAfter word (some c) rest

/-- The function `contains_word`: `word` occurs in `text` as a whole word. -/
def containsWord (text : List Char) (word : String) : Bool :=
  containsWordAfter word.toList none text

/-- The function `extract_type_tokens`: the words of `vocabulary` that occur in `text`, by their
first places; words at one place keep the order of the vocabulary. -/
def typeWords (text : List Char) (vocabulary : List String) : List String :=
  let found := vocabulary.filterMap fun word =>
    (keywordPosition text word).map fun position => (position, word)
  (found.mergeSort fun a b => a.1 ≤ b.1).map (·.2)

/-! ## Intents -/

/-- What a command asks for, as `Intent` lists it but for `UNKNOWN`. -/
inductive Intent where
  | move
  | filter
  | sort
  | duplicates
  deriving DecidableEq, Repr

namespace Intent

/-- All intents in the order in which they are tried. -/
def all : List Intent := [move, filter, sort, duplicates]

/-- The name of an intent. -/
def name : Intent → String
  | move => "move"
  | filter => "filter"
  | sort => "sort"
  | duplicates => "duplicates"

/-- The words that call for an intent, those of its entry in `INTENT_TRIGGERS`. -/
def triggers : Intent → List String
  | move => ["move", "copy", "transfer", "relocate"]
  | filter => ["show", "find", "display", "list", "get", "search", "filter", "where"]
  | sort => ["sort", "order", "arrange"]
  | duplicates => ["duplicate", "duplicates", "same", "copies", "similar", "identical"]

end Intent

/-- The name of an intent, or of its absence. -/
def intentName (intent : Option Intent) : String := (intent.map Intent.name).getD "unknown"

/-- The function `matching_intents`: the intents whose trigger words occur in `text`, in the order
of `Intent.all`. -/
def intents (text : List Char) : List Intent :=
  Intent.all.filter fun intent => containsAny text intent.triggers

/-- The function `classify`: the first of `intents text`. -/
def classify (text : List Char) : Option Intent := (intents text).head?

/-! ## Words that shape a search -/

/-- The words `RECENT_WORDS`, which ask for the newest files. -/
def recentWords : List String := ["recent", "newest", "latest", "new", "last"]

/-- The words `OLD_WORDS`, which ask for the oldest files. -/
def oldWords : List String := ["old", "oldest", "earlier"]

/-- The words `LARGE_WORDS`, which ask for large files. -/
def largeWords : List String := ["large", "big", "huge"]

/-- The words `SMALL_WORDS`, which ask for small files. -/
def smallWords : List String := ["small", "tiny"]

/-- The word `ALL_WORD`, which lifts the limit on the newest and oldest files. -/
def allWord : String := "all"

/-! ## Sort keys -/

/-- The attribute by which files are sorted. -/
inductive SortKey where
  | size
  | date
  | name
  deriving DecidableEq, Repr

/-- The name of a sort key. -/
def SortKey.label : SortKey → String
  | .size => "size"
  | .date => "date"
  | .name => "name"

/-- The words that name a sort key, such as `SIZE_SORT_WORDS`. -/
def SortKey.words : SortKey → List String
  | .size => ["size", "largest", "smallest"]
  | .date => ["date", "time", "newest", "oldest", "recent"]
  | .name => ["name", "alphabetical", "alpha"]

/-- The words that reverse the order of a sort key, such as `SIZE_DESC_WORDS`. -/
def SortKey.descendingWords : SortKey → List String
  | .size => ["large", "largest", "biggest", "desc"]
  | .date => ["new", "newest", "recent", "latest", "desc"]
  | .name => ["desc", "descending", "reverse", "z-a"]

/-- The function `choose_sort_key`: the key that `text` names, size before date before name, and
whether its order is descending. -/
def chooseSortKey (text : List Char) : Option SortKey × Bool :=
  match [SortKey.size, .date, .name].find? fun key => containsAny text key.words with
  | some key => (some key, containsAny text key.descendingWords)
  | none => (none, false)

end FileClerk.Command
