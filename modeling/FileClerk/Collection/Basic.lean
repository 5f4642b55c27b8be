import FileClerk.Command.Intent
import FileClerk.Command.SizePhrase
import FileClerk.Record

/-!
# Collections of records

What commands do with a collection. A selection by extension, size or name keeps the order of the
records, and a criterion that is not given keeps all of them.

Records are sorted by size, by time of modification or by name with letter case folded (`sortBy`). A
sort is stable in both directions: records with equal keys keep their order also when it is
descending. Moments with and without an offset cannot be compared, and a collection that holds both
is not sorted by time.

Records of equal size and equal extension are taken for possible duplicates. A cluster holds all
records of one size and extension, in order, if there are at least two; clusters follow each other
in the order of their first records.

`sample` has eight records that stand in for a directory. Two of them share size and type, so that a
search for duplicates finds something.
-/

set_option autoImplicit false

namespace FileClerk.Collection

open FileClerk.Text FileClerk.Command

/-! ## Selections -/

/-- The records of `files` whose extension is among `extensions`, letter case aside; without any
extensions, all records. This is `filter_by_types`. -/
def withTypes (extensions : List String) (files : List Record) : List Record :=
  if extensions.isEmpty then files
  else
    let wanted := extensions.map lowered
    files.filter fun r => wanted.contains (lowered r.extension)

/-- The records of `files` whose size lies beyond `threshold`, as in `filter_by_size`; without a
threshold, all records. -/
def withSize (threshold : Option Threshold) (files : List Record) : List Record :=
  match threshold with
  | none => files
  | some t => files.filter fun r => t.admits r.size

/-- The lower-case form of `term` occurs in that of the name of `r`. -/
def nameContains (term : List Char) (r : Record) : Bool :=
  occursIn (lower term) (lower r.name.toList)

/-- The records of `files` whose name contains `term`, as in `filter_by_name`; without a term, all
records. -/
def withName (term : Option (List Char)) (files : List Record) : List Record :=
  match term with
  | none => files
  | some t => if t.isEmpty then files else files.filter (nameContains t)

/-! ## Sorts -/

/-- The key by which names are ordered, the name with its letter case folded. -/
def nameKey (r : Record) : String := String.ofList (foldCase r.name.toList)

/-- The key of the first record is not above that of the second, for the keys of `_SORT_ATTRIBUTES`.
-/
def precedes : SortKey → Record → Record → Bool
  | .size, a, b => a.size ≤ b.size
  | .date, a, b => a.modified.place ≤ b.modified.place
  | .name, a, b => nameKey a ≤ nameKey b

/-- The order `precedes key`, turned round if `descending`. -/
def inOrder (key : SortKey) (descending : Bool) (a b : Record) : Bool :=
  if descending then precedes key b a else precedes key a b

/-- The moments of `files` can be compared with each other: all have an offset, or none has one. -/
def comparable (files : List Record) : Bool :=
  files.all (·.modified.offset.isSome) || files.all (·.modified.offset.isNone)

/-- The records sorted by `key`, or `CommandFault.incomparableMoments`. -/
def sortBy (key : SortKey) (descending : Bool) (files : List Record) :
    Except CommandFault (List Record) :=
  if key == .date && !comparable files then .error .incomparableMoments
  else .ok (files.mergeSort (inOrder key descending))

/-- The function `sort_files`: the records sorted by `key`; without one they keep their order. -/
def sorted (key : Option SortKey) (descending : Bool) (files : List Record) :
    Except CommandFault (List Record) :=
  match key with
  | none => .ok files
  | some key => sortBy key descending files

/-- The records in front of `limit`. A negative limit counts from the end, and no limit keeps all
records. -/
def upTo (limit : Option Int) (files : List Record) : List Record :=
  match limit with
  | none => files
  | some n => if n < 0 then files.take (files.length - n.natAbs) else files.take n.toNat

/-- The function `sort_by_recency`: the newest or the oldest records up to `limit`. -/
def byRecency (newestFirst : Bool) (limit : Option Int) (files : List Record) :
    Except CommandFault (List Record) :=
  (sortBy .date newestFirst files).map (upTo limit)

/-! ## Possible duplicates -/

/-- What possible duplicates share: size, and extension in lower case. -/
def duplicateKey (r : Record) : Nat × String := (r.size, lowered r.extension)

/-- The keys of `files`, each once, in the order of their first records. -/
def duplicateKeys (files : List Record) : List (Nat × String) := (files.map duplicateKey).eraseDups

/-- The function `find_duplicate_clusters`: the records of each key that at least two records of
`files` have. -/
def clusters (files : List Record) : List (List Record) :=
  ((duplicateKeys files).map fun key => files.filter fun r => duplicateKey r == key).filter
    fun cluster => cluster.length > 1

/-- The function `find_duplicates`: the records of all clusters. -/
def duplicates (files : List Record) : List Record := (clusters files).flatten

/-! ## Sample records -/

/-- Name, extension, size and date of each record of `sample`. -/
def sampleRows : List (String × String × Nat × Date) :=
  [("Document1.pdf", "pdf", 2621440, ⟨2023, 4, 15⟩),
    ("Image1.jpg", "jpg", 524288, ⟨2023, 5, 10⟩),
    ("Video1.mp4", "mp4", 15728640, ⟨2023, 6, 5⟩),
    ("Document2.pdf", "pdf", 1258291, ⟨2023, 4, 20⟩),
    ("Image1_copy.jpg", "jpg", 524288, ⟨2023, 5, 11⟩),
    ("Music1.mp3", "mp3", 5242880, ⟨2023, 6, 20⟩),
    ("Spreadsheet.xlsx", "xlsx", 819200, ⟨2023, 7, 5⟩),
    ("Presentation.pptx", "pptx", 3670016, ⟨2023, 7, 20⟩)]

/-- The folder that sample records are shown in. -/
def sampleFolder : String := "Sample"

/-- The function `sample_files`: the records of `sampleRows`, shown in `folder` and numbered from
one on. -/
def sample (folder : String) : List Record :=
  sampleRows.zipIdx.map fun ((name, extension, size, date), index) =>
    ⟨toString (index + 1), name, extension, size, Moment.ofClock date 0 0 0 0 none,
      folder ++ "/" ++ name⟩

end FileClerk.Collection
