import FileClerk.Text.Basic
import FileClerk.Text.Case
import FileClerk.Text.Piece

/-!
# Name terms

A search may ask for a part of file names: "name contains report". The word "name" is followed by
blanks, then perhaps by a connective such as "contains" and by a quote, and then by the term: the
longest run of Latin letters, digits, underscores, blanks, points and hyphens. A connective that
would leave no term behind it is read as the term itself, unless blanks follow it.
-/

set_option autoImplicit false

namespace FileClerk.Command

open FileClerk.Text

/-- The connectives of `NAME_PATTERN` between "name" and a term. -/
def connectives : List String := ["contains", "containing", "with", "having", "like"]

/-- The character is in the class `[a-z0-9_\s.-]` of `NAME_PATTERN`, whose letters are read in any
case. -/
def isTermChar (c : Char) : Bool :=
  let d := foldLetter c
  ('a' ≤ d && d ≤ 'z') || ('0' ≤ d && d ≤ '9') || d == '_' || d == '.' || d == '-' || isBlank c

/-- The character is a quote around a term. -/
def isQuote (c : Char) : Bool := c == '\x27' || c == '\x22'

/-- The longest run of `isTermChar` at the start of `s`, perhaps behind one quote; nothing for an
empty run. -/
def quotedTerm? (s : List Char) : Option (List Char) :=
  match s with
  | [] => none
  | c :: rest =>
    if isQuote c then
      if rest.head?.any isTermChar then some (rest.takeWhile isTermChar) else none
    else if isTermChar c then some (s.takeWhile isTermChar)
    else none

/-- The term behind a connective and the blanks after it; with blanks and no term the blanks are the
term. -/
def termAfter? (s : List Char) : Option (List Char) :=
  match quotedTerm? (s.dropWhile isBlank) with
  | some term => some term
  | none => if s.head?.any isBlank then some [' '] else none

/-- The term behind a connective, if `s` starts with one. -/
def termAfterConnective? (s : List Char) : Option (List Char) :=
  connectives.findSome? fun word => (afterLetters word.toList s).bind termAfter?

/-- The pattern `NAME_PATTERN` at a place: the term of the phrase that starts there with the word
"name". A blank term stands for a phrase without a term. -/
def nameTermAt? (before : Option Char) (s : List Char) : Option (List Char) := do
  if before.any isWordChar then none
  else
    let rest ← afterLetters ['n', 'a', 'm', 'e'] s
    let blanks := rest.takeWhile isBlank
    if blanks.isEmpty then none
    else
      let body := rest.dropWhile isBlank
      ((termAfterConnective? body).or (quotedTerm? body)).or
        (if blanks.length > 1 then some [' '] else none)

/-- The function `extract_name_term`: the name term of a text in which "name" occurs. -/
def nameTerm? (text : List Char) : Option (List Char) :=
  if occursIn ['n', 'a', 'm', 'e'] text then
    match firstReading? nameTermAt? none text with
    | none => none
    | some term => if (trim term).isEmpty then none else some (trim term)
  else none

end FileClerk.Command
