import FileClerk.Proofs.Catalogue
import FileClerk.Proofs.Command.SearchTerm
import FileClerk.Proofs.Command.SizeClause
import FileClerk.Proofs.Interpreter.Preview

/-!
# Criteria in either order

A search can give its name term in front of its size clause or behind it. Keywords, size and types
are the same either way, since each reader passes over the other criterion (`says_nameFirst`,
`says_sizeFirst`), and so a search finds the same files as far as names do not count
(`Says.found_eq`).

A name term goes on as long as characters do that a term can hold, and those of a size clause are
such characters. So a term in front of the clause has to stand between quotes. Without them the
clause is part of the term, and the search keeps those files only whose names contain both
(`listed_either_order`).
-/

set_option autoImplicit false

namespace FileClerk

open FileClerk.Text FileClerk.Command FileClerk.Collection

/-! ## Files before names count -/

namespace Criteria

/-- The criteria with `term := none`. -/
def unnamed (c : Criteria) : Criteria := { c with term := none }

/-- A search goes by what matches, by the age that is asked for and by the name. -/
theorem apply_congr {c c' : Criteria} {files : List Record}
    (hmatching : c.matching files = c'.matching files) (hrecency : c.recency = c'.recency)
    (hlimit : c.limit = c'.limit) (hterm : c.term = c'.term) : c.apply files = c'.apply files := by
  rw [apply_eq, apply_eq, chosen, chosen, latest, latest, hmatching, hrecency, hlimit, hterm]

/-- The name term is applied last: `apply` is `withName` behind `apply` of `unnamed`. -/
theorem apply_eq_map (c : Criteria) (files : List Record) :
    c.apply files = (c.unnamed.apply files).map (withName c.term) := by
  have hrecency : c.unnamed.recency = c.recency := rfl
  have hmatching : c.unnamed.matching files = c.matching files := rfl
  have hchosen : c.chosen files = withName c.term (c.unnamed.chosen files) := rfl
  rw [apply_eq, apply_eq, hrecency, hmatching, hchosen]
  split
  · rfl
  · rfl

end Criteria

/-- The files of an answer to a move, or those of a search whose name term is left out. -/
def Interpreter.found (i : Interpreter) (command : String) (text : List Char)
    (files : List Record) : Except CommandFault (List Record) :=
  (i.read command text).bind fun r =>
    if CallsFor .move text then .ok (i.move r files).files
    else (i.criteria text r).unnamed.apply files

/-- The `files` of the answer of `process`. -/
def Interpreter.listed (i : Interpreter) (command : String) (files : List Record) :
    Except CommandFault (List Record) :=
  (i.process (some command) files).map (·.files)

/-- The answer to a search with a size phrase lists what is `found` and has the name term, if there
is one. A word for moving makes it a move, and names do not count. -/
theorem listed_eq_found {i : Interpreter} {command : String} {p : SizePhrase}
    (hfilter : CallsFor .filter (commandText (some command)))
    (hsize : firstReading? sizePhrase? none (commandText (some command)) = some p)
    (files : List Record) :
    i.listed command files =
      (i.found command (commandText (some command)) files).map fun found =>
        if CallsFor .move (commandText (some command)) then found
        else withName (nameTerm? (commandText (some command))) found := by
  have hne := ne_nil_of_callsFor hfilter
  unfold Interpreter.listed Interpreter.found
  cases hread : i.read command (commandText (some command)) with
  | error fault =>
      rw [Interpreter.process, run_eq, if_neg hne, Option.getD_some, hread]
      rfl
  | ok r =>
      by_cases hmove : CallsFor .move (commandText (some command))
      · -- the answer to a move is what is found
        have hbranch : i.branch? (commandText (some command)) = some .move := if_pos hmove
        rw [process_eq_respond hread hbranch, Interpreter.respond]
        simp only [hmove, if_true, Except.map, Except.bind]
      · -- that of a search has the names besides, and an order by time may fail either way
        have hbranch : i.branch? (commandText (some command)) = some .filter :=
          branch?_eq_filter_iff.2 ⟨hmove, hfilter, Or.inl (.size p hsize)⟩
        rw [process_eq_respond hread hbranch, Interpreter.respond, Interpreter.search,
          Criteria.apply_eq_map]
        simp only [hmove, if_false, Except.bind]
        cases (i.criteria (commandText (some command)) r).unnamed.apply files with
        | error fault => rfl
        | ok found => rfl

/-! ## What a search says besides its name -/

/-- The words in front of the criteria. -/
def openingWords : List (List Char) := ["show".toList, "files".toList]

/-- The words in front of a term. -/
def namingWords : List (List Char) := ["with".toList, "name".toList, "containing".toList]

/-- The parts of the search with `term` in front of `clause`. -/
def nameFirstParts (term clause : List Char) : List (List Char) :=
  openingWords ++ (namingWords ++ [term, clause])

/-- The parts of the search with `clause` in front of `term`. -/
def sizeFirstParts (term clause : List Char) : List (List Char) :=
  openingWords ++ (clause :: (namingWords ++ [term]))

/-- The text says what a search for `word` and the clause says, whatever its name term is. -/
structure Says (word : List Char) (c : SizeClause) (text : List Char) : Prop where
  keywords : ∀ v, WordLike v →
    (StartsWord v text ↔ ∃ part ∈ nameFirstParts word (lower c.text.toList), StartsWord v part)
  all : containsWord text allWord =
    (nameFirstParts word (lower c.text.toList)).any fun part => containsWord part allWord
  phrase : firstReading? sizePhrase? none text = some c.phrase.lowered
  strip : ∀ withPhrases, stripDestination withPhrases text = text

namespace Says

variable {i : Interpreter} {word text text' : List Char} {c : SizeClause}

theorem containsAny_eq (h : Says word c text) (h' : Says word c text') {words : List String}
    (hwords : ∀ w ∈ words, WordLike (lower w.toList)) :
    containsAny text words = containsAny text' words := by
  rw [Bool.eq_iff_iff, containsAny_iff, containsAny_iff]
  refine exists_congr fun w => and_congr_right fun hw => ?_
  rw [h.keywords _ (hwords w hw), h'.keywords _ (hwords w hw)]

theorem callsFor_iff (h : Says word c text) (h' : Says word c text') (intent : Intent) :
    CallsFor intent text ↔ CallsFor intent text' := by
  have hwords : ∀ w ∈ intent.triggers, WordLike (lower w.toList) := by
    cases intent with
    | move => decide +kernel
    | filter => decide +kernel
    | sort => decide +kernel
    | duplicates => decide +kernel
  rw [← containsAny_triggers_iff, ← containsAny_triggers_iff, h.containsAny_eq h' hwords]

theorem sizeThreshold_eq (h : Says word c text) (h' : Says word c text') :
    sizeThreshold text = sizeThreshold text' := by
  rw [sizeThreshold, sizeThreshold, h.phrase, h'.phrase]

theorem sizeTooLarge_iff (h : Says word c text) (h' : Says word c text') :
    SizeTooLarge text ↔ SizeTooLarge text' := by
  rw [SizeTooLarge, SizeTooLarge, h.phrase, h'.phrase]

/-- The type words are the same, perhaps in another order. -/
theorem mem_typeWords_iff (h : Says word c text) (h' : Says word c text')
    {vocabulary : List String} (hvocabulary : ∀ v ∈ vocabulary, WordLike (lower v.toList))
    (withPhrases withPhrases' : Bool) (w : String) :
    w ∈ typeWords (stripDestination withPhrases text) vocabulary ↔
      w ∈ typeWords (stripDestination withPhrases' text') vocabulary := by
  rw [h.strip, h'.strip, mem_typeWords, mem_typeWords]
  refine and_congr_right fun hw => ?_
  rw [h.keywords _ (hvocabulary w hw), h'.keywords _ (hvocabulary w hw)]

theorem withTypes_eq (h : Says word c text) (h' : Says word c text')
    (hvocabulary : ∀ v ∈ i.catalogue.vocabulary, WordLike (lower v.toList))
    {command command' : String} {r r' : Reading} (hread : i.read command text = .ok r)
    (hread' : i.read command' text' = .ok r') (files : List Record) :
    withTypes (i.catalogue.expand r.typeWords) files =
      withTypes (i.catalogue.expand r'.typeWords) files := by
  rw [withTypes_eq_filter, withTypes_eq_filter]
  refine List.filter_congr fun record _ => hasType_congr (fun x => ?_) record
  refine i.catalogue.mem_expand_congr (fun w => ?_) x
  rw [typeWords_of_read hread, typeWords_of_read hread', h.mem_typeWords_iff h' hvocabulary]

theorem threshold_eq (h : Says word c text) (h' : Says word c text') {command command' : String}
    {r r' : Reading} (hread : i.read command text = .ok r)
    (hread' : i.read command' text' = .ok r') : r.threshold = r'.threshold :=
  Except.ok.inj ((threshold_of_read hread).symm.trans
    ((h.sizeThreshold_eq h').trans (threshold_of_read hread')))

/-- The criteria besides names are the same. -/
theorem apply_eq (h : Says word c text) (h' : Says word c text')
    (hvocabulary : ∀ v ∈ i.catalogue.vocabulary, WordLike (lower v.toList))
    {command command' : String} {r r' : Reading} (hread : i.read command text = .ok r)
    (hread' : i.read command' text' = .ok r') (files : List Record) :
    (i.criteria text r).unnamed.apply files = (i.criteria text' r').unnamed.apply files := by
  have hrecency : recency? text = recency? text' := by
    rw [recency?, recency?, h.containsAny_eq h' (by decide +kernel),
      h.containsAny_eq h' (by decide +kernel)]
  have hvague : i.vagueThreshold text = i.vagueThreshold text' := by
    rw [Interpreter.vagueThreshold, Interpreter.vagueThreshold,
      h.containsAny_eq h' (by decide +kernel), h.containsAny_eq h' (by decide +kernel)]
  have hlimit : i.recencyLimit text = i.recencyLimit text' := by
    rw [Interpreter.recencyLimit, Interpreter.recencyLimit, h.all, h'.all]
  have hthreshold := h.threshold_eq h' hread hread'
  have htypes := h.withTypes_eq h' hvocabulary hread hread' files
  rw [← getD_extensions i text r, ← getD_extensions i text' r'] at htypes
  have hmatching : (i.criteria text r).matching files = (i.criteria text' r').matching files := by
    rw [Criteria.matching, Criteria.matching, htypes]
    simp only [Interpreter.criteria, hthreshold, hvague]
  exact Criteria.apply_congr hmatching hrecency hlimit rfl

/-- Texts that `Says` holds of have one `found`. -/
theorem found_eq (h : Says word c text) (h' : Says word c text')
    (hvocabulary : ∀ v ∈ i.catalogue.vocabulary, WordLike (lower v.toList))
    (command command' : String) (files : List Record) :
    i.found command text files = i.found command' text' files := by
  unfold Interpreter.found
  cases hread : i.read command text with
  | error fault =>
      -- a size out of range is refused in both texts
      obtain ⟨rfl, hlarge⟩ := read_eq_error_iff.1 hread
      rw [read_eq_error_iff.2 ⟨rfl, (h.sizeTooLarge_iff h').1 hlarge⟩]
      rfl
  | ok r =>
      have hsize : ¬ SizeTooLarge text' := by
        rw [← h.sizeTooLarge_iff h']
        intro hlarge
        rw [read_eq_error_iff.2 ⟨rfl, hlarge⟩] at hread
        cases hread
      obtain ⟨r', hread'⟩ := exists_read command' hsize
      rw [hread']
      simp only [Except.bind, ← h.callsFor_iff h' .move]
      have hmoved : (i.move r files).files = (i.move r' files).files := by
        have htypes := h.withTypes_eq h' hvocabulary hread hread' files
        have hthreshold := h.threshold_eq h' hread hread'
        simp only [Interpreter.move, htypes, hthreshold]
        split
        · rfl
        · rfl
      rw [hmoved, h.apply_eq h' hvocabulary hread hread']

end Says

/-! ## The two searches -/

/-- The command `show files with name containing <term> <clause>`. -/
def nameFirst (term : String) (c : SizeClause) : String :=
  "show files with name containing " ++ term ++ " " ++ c.text

/-- The command `show files <clause> with name containing <term>`. -/
def sizeFirst (term : String) (c : SizeClause) : String :=
  "show files " ++ c.text ++ " with name containing " ++ term

/-- The word between two quotes `q`. -/
def inQuotes (q : Char) (w : String) : String := String.singleton q ++ w ++ String.singleton q

theorem writes_inQuotes {q : Char} (hq : isQuote q = true) (w : String) :
    Writes w.toList (inQuotes q w).toList := by
  have htext : (inQuotes q w).toList = q :: (w.toList ++ [q]) := by
    simp [inQuotes]
  rw [htext]
  exact .quoted q hq

/-- A command in parts is put into lower case part by part if it has no blanks at its ends. -/
theorem commandText_intercalate {command : String} {last : List Char} {parts : List (List Char)}
    (hcommand : command.toList = [' '].intercalate parts)
    (hfirst : StopsBefore isBlank command.toList) (hsuffix : last <:+ command.toList)
    (hne : last ≠ []) (hlast : StopsBefore isBlank last.reverse) :
    commandText (some command) = [' '].intercalate (parts.map lower) := by
  obtain ⟨before, hbefore⟩ := hsuffix
  rw [commandText_eq_lower hfirst, hcommand, lower_intercalate]
  rw [← hbefore, List.reverse_append]
  exact stopsBefore_append (by simpa using hne) hlast _

/-- The words of the searches are in lower case. -/
theorem map_lower_words :
    openingWords.map lower = openingWords ∧ namingWords.map lower = namingWords := by
  decide

section Texts

variable {w term : String} (hword : PlainWord w.toList) (hterm : Writes w.toList term.toList)
  (c : SizeClause)

include hword hterm

theorem lower_term : lower term.toList = term.toList :=
  lower_eq_self fun d hd => (hterm.classes hword d hd).2.2

theorem commandText_nameFirst : commandText (some (nameFirst term c)) =
    [' '].intercalate (nameFirstParts term.toList (lower c.text.toList)) := by
  have htext : (nameFirst term c).toList = "show files with name containing ".toList ++
      (term.toList ++ (" ".toList ++ c.text.toList)) := by
    unfold nameFirst
    rw [String.toList_append, String.toList_append, String.toList_append, List.append_assoc,
      List.append_assoc]
  have hparts : (nameFirst term c).toList =
      [' '].intercalate (nameFirstParts term.toList c.text.toList) := by
    rw [htext]
    simp [nameFirstParts, openingWords, namingWords, List.intercalate]
  have hsuffix : c.text.toList <:+ (nameFirst term c).toList := by
    unfold nameFirst
    rw [String.toList_append]
    exact List.suffix_append _ _
  have hlower : (nameFirstParts term.toList c.text.toList).map lower =
      nameFirstParts term.toList (lower c.text.toList) := by
    simp only [nameFirstParts, List.map_append, List.map_cons, List.map_nil, map_lower_words,
      lower_term hword hterm]
  rw [← hlower]
  refine commandText_intercalate hparts ?_ hsuffix c.spelled.ne_nil c.spelled.stopsBefore_reverse
  rw [htext]
  exact stopsBefore_cons.2 (by decide)

theorem commandText_sizeFirst : commandText (some (sizeFirst term c)) =
    [' '].intercalate (sizeFirstParts term.toList (lower c.text.toList)) := by
  have htext : (sizeFirst term c).toList = "show files ".toList ++
      (c.text.toList ++ (" with name containing ".toList ++ term.toList)) := by
    unfold sizeFirst
    rw [String.toList_append, String.toList_append, String.toList_append, List.append_assoc,
      List.append_assoc]
  have hparts : (sizeFirst term c).toList =
      [' '].intercalate (sizeFirstParts term.toList c.text.toList) := by
    rw [htext]
    simp [sizeFirstParts, openingWords, namingWords, List.intercalate]
  have hsuffix : term.toList <:+ (sizeFirst term c).toList := by
    unfold sizeFirst
    rw [String.toList_append]
    exact List.suffix_append _ _
  have hlower : (sizeFirstParts term.toList c.text.toList).map lower =
      sizeFirstParts term.toList (lower c.text.toList) := by
    simp only [sizeFirstParts, List.map_append, List.map_cons, List.map_nil, map_lower_words,
      lower_term hword hterm]
  have hlast : StopsBefore isBlank term.toList.reverse :=
    .of_forall fun d hd => (hterm.classes hword d (List.mem_reverse.1 hd)).1
  rw [← hlower]
  refine commandText_intercalate hparts ?_ hsuffix (hterm.ne_nil hword) hlast
  rw [htext]
  exact stopsBefore_cons.2 (by decide)

end Texts

/-! ## What the two searches say -/

/-- A text in parts says what the parts say. -/
theorem says_of_perm {word term : List Char} {c : SizeClause} {parts : List (List Char)}
    (hterm : Writes word term) (hperm : parts.Perm (nameFirstParts term (lower c.text.toList)))
    (hphrase : firstReading? sizePhrase? none ([' '].intercalate parts) = some c.phrase.lowered)
    (hfree : ∀ part ∈ parts, BracketFree part)
    (hfolder : firstReading? folderPhrase none ([' '].intercalate parts) = none) :
    Says word c ([' '].intercalate parts) where
  keywords := by
    intro v hv
    rw [startsWord_intercalate hv]
    simp only [hperm.mem_iff]
    simp [nameFirstParts, openingWords, namingWords, hterm.startsWord_iff hv]
  all := by
    have hall : WordLike allWord.toList := by decide
    rw [containsWord_intercalate hall, hperm.any_eq]
    simp [nameFirstParts, openingWords, namingWords, hterm.containsWord_eq hall]
  phrase := hphrase
  strip := by
    intro withPhrases
    rw [stripDestination, blankOut_eq_self (firstReading?_bracketGroup
      (bracketFree_intercalate hfree) none), blankOut_eq_self hfolder]
    exact ite_self _

section Says

variable {word term : List Char} (hword : PlainWord word) (hterm : Writes word term)
  (c : SizeClause)

include hword hterm

/-- No part of the searches has a bracket. -/
theorem bracketFree_parts :
    ∀ part ∈ nameFirstParts term (lower c.text.toList), BracketFree part := by
  have hwords : ∀ part ∈ openingWords ++ namingWords, BracketFree part := by decide
  have hfree : BracketFree term := fun d hd => (hterm.classes hword d hd).2.1
  intro part hpart
  rw [nameFirstParts, ← List.append_assoc, List.mem_append] at hpart
  rcases hpart with hpart | hpart
  · exact hwords part hpart
  · rcases List.mem_pair.1 hpart with rfl | rfl
    · exact hfree
    · exact c.spelled_lower.bracketFree

/-- The command `nameFirst` has `Says`: the term does not hide the clause behind it. -/
theorem says_nameFirst : Says word c ([' '].intercalate
    (nameFirstParts term (lower c.text.toList))) := by
  have hspelled := c.spelled_lower
  refine says_of_perm hterm (List.Perm.refl _) ?_ (bracketFree_parts hword hterm c) ?_
  · rw [nameFirstParts, opensWith_sizePhrase?.firstReading?_intercalate (by decide) (by simp),
      opensWith_sizePhrase?.firstReading?_intercalate (by decide) (by simp),
      intercalate_cons (by simp), List.intercalate_singleton,
      hterm.firstReading?_append_cons hword opensWith_sizePhrase?
        (hspelled.sizePhrase?_append_cons hword.wordLike)]
    exact hspelled.firstReading?_self
  · rw [nameFirstParts, opensWith_folderPhrase.firstReading?_intercalate (by decide) (by simp),
      opensWith_folderPhrase.firstReading?_intercalate (by decide) (by simp),
      intercalate_cons (by simp), List.intercalate_singleton,
      hterm.firstReading?_append_cons hword opensWith_folderPhrase
        (hspelled.folderPhrase_append_cons hword.wordLike)]
    exact hspelled.firstReading?_eq_none opensWith_folderPhrase (by decide)

/-- The command `sizeFirst` has `Says`: the clause does not hide the term behind it. -/
theorem says_sizeFirst : Says word c ([' '].intercalate
    (sizeFirstParts term (lower c.text.toList))) := by
  have hspelled := c.spelled_lower
  have hperm : (sizeFirstParts term (lower c.text.toList)).Perm
      (nameFirstParts term (lower c.text.toList)) := by
    rw [sizeFirstParts, nameFirstParts, List.perm_append_left_iff]
    have hmoved : ([lower c.text.toList] ++ (namingWords ++ [term])).Perm
        (namingWords ++ [term] ++ [lower c.text.toList]) := List.perm_append_comm
    rwa [List.singleton_append, List.append_assoc] at hmoved
  have hfree : ∀ part ∈ sizeFirstParts term (lower c.text.toList), BracketFree part :=
    fun part hpart => bracketFree_parts hword hterm c part (hperm.mem_iff.1 hpart)
  refine says_of_perm hterm hperm ?_ hfree ?_
  · rw [sizeFirstParts, opensWith_sizePhrase?.firstReading?_intercalate (by decide) (by simp),
      intercalate_cons (by simp)]
    exact hspelled.firstReading?_of_stops (stopsBefore_cons.2 (by decide))
  · rw [sizeFirstParts, opensWith_folderPhrase.firstReading?_intercalate (by decide) (by simp),
      intercalate_cons (by simp),
      hspelled.firstReading?_append_cons opensWith_folderPhrase (by decide) (by decide),
      opensWith_folderPhrase.firstReading?_intercalate (by decide) (by simp),
      List.intercalate_singleton]
    exact hterm.firstReading?_eq_none hword opensWith_folderPhrase

end Says

/-! ## The terms of the two searches -/

/-- What is read behind the words in front of a term is the term. -/
theorem firstReading?_namingWords {front parts : List (List Char)} {t : List Char}
    (hfront : ∀ part ∈ front, WordLike part ∧ ∀ w ∈ ["name"], part.map foldLetter ≠ w.toList)
    (hne : parts ≠ []) (hstart : StopsBefore isBlank ([' '].intercalate parts))
    (hread : quotedTerm? ([' '].intercalate parts) = some t) :
    firstReading? nameTermAt? none ([' '].intercalate (front ++ (namingWords ++ parts))) =
      some t := by
  have hwith : namingWords ++ parts =
      ["with".toList] ++ ("name".toList :: "containing".toList :: parts) := rfl
  rw [opensWith_nameTermAt?.firstReading?_intercalate hfront (by simp [hne]), hwith,
    opensWith_nameTermAt?.firstReading?_intercalate (by decide) (by simp),
    intercalate_cons (by simp), intercalate_cons hne]
  exact firstReading?_eq_some (nameTermAt?_connective (k := "containing") (by decide) hstart hread)

section Terms

variable {word term : List Char} (hword : PlainWord word) (c : SizeClause)

include hword

/-- Behind the clause, the term of the search is the word. -/
theorem nameTerm?_sizeFirst (hterm : Writes word term) :
    nameTerm? ([' '].intercalate (sizeFirstParts term (lower c.text.toList))) = some word := by
  have hname : "name".toList ∈ sizeFirstParts term (lower c.text.toList) := by
    simp [sizeFirstParts, namingWords]
  have hstart : StopsBefore isBlank term :=
    .of_forall fun d hd => (hterm.classes hword d hd).1
  refine nameTerm?_eq_some (infix_intercalate hname) ?_ hword.ne_nil hword.trim_eq
  have hbehind : firstReading? nameTermAt? none
      ([' '].intercalate ([] ++ (namingWords ++ [term]))) = some word :=
    firstReading?_namingWords (by decide) (by simp) (by simpa using hstart)
      (by simpa using hterm.quotedTerm?_eq hword)
  rw [sizeFirstParts, opensWith_nameTermAt?.firstReading?_intercalate (by decide) (by simp),
    intercalate_cons (by simp),
    c.spelled_lower.firstReading?_append_cons opensWith_nameTermAt? (by decide) (by decide)]
  exact hbehind

/-- In front of the clause, the term of the search is what is read there. -/
theorem nameTerm?_nameFirst {t : List Char} (hterm : Writes word term)
    (hread : quotedTerm? (term ++ ' ' :: lower c.text.toList) = some t) (hne : t ≠ [])
    (htrim : trim t = t) :
    nameTerm? ([' '].intercalate (nameFirstParts term (lower c.text.toList))) = some t := by
  have hname : "name".toList ∈ nameFirstParts term (lower c.text.toList) := by
    simp [nameFirstParts, namingWords]
  have hstart : StopsBefore isBlank (term ++ ' ' :: lower c.text.toList) :=
    stopsBefore_append (hterm.ne_nil hword)
      (.of_forall fun d hd => (hterm.classes hword d hd).1) _
  refine nameTerm?_eq_some (infix_intercalate hname) ?_ hne htrim
  have hparts : [' '].intercalate [term, lower c.text.toList] =
      term ++ ' ' :: lower c.text.toList := by
    rw [intercalate_cons (by simp), List.intercalate_singleton]
  rw [← hparts] at hstart hread
  exact firstReading?_namingWords (by decide) (by simp) hstart hread

/-- Between quotes, the term is the word. -/
theorem nameTerm?_nameFirst_quoted {q : Char} (hq : isQuote q = true) :
    nameTerm? ([' '].intercalate (nameFirstParts (q :: (word ++ [q])) (lower c.text.toList))) =
      some word := by
  have hread := quotedTerm?_quote hq hword.ne_nil hword.isTermChar (' ' :: lower c.text.toList)
  refine nameTerm?_nameFirst hword c (.quoted q hq) ?_ hword.ne_nil hword.trim_eq
  simpa using hread

/-- The term that is read in `nameFirst` without quotes: the word and the clause behind it. -/
def longTerm (word : List Char) (c : SizeClause) : List Char :=
  word ++ ' ' :: lower c.text.toList

/-- Without quotes, the clause is part of the term. -/
theorem nameTerm?_nameFirst_plain :
    nameTerm? ([' '].intercalate (nameFirstParts word (lower c.text.toList))) =
      some (longTerm word c) := by
  have hne : longTerm word c ≠ [] := List.append_ne_nil_of_left_ne_nil hword.ne_nil _
  have hterm : ∀ d ∈ longTerm word c, isTermChar d = true := by
    have hspace : isTermChar ' ' = true := by decide
    rw [longTerm, List.forall_mem_append, List.forall_mem_cons]
    exact ⟨hword.isTermChar, hspace, c.isTermChar_lower⟩
  have hread := quotedTerm?_append hne hterm (stopsBefore_nil _)
  rw [List.append_nil] at hread
  refine nameTerm?_nameFirst hword c .plain hread hne (trim_eq_self ?_ ?_)
  · exact stopsBefore_append hword.ne_nil
      (.of_forall hword.wordLike.unbroken.blankFree) _
  · rw [longTerm, List.reverse_append, List.reverse_cons, List.append_assoc]
    exact stopsBefore_append (by simpa using c.spelled_lower.ne_nil)
      c.spelled_lower.stopsBefore_reverse _

end Terms

/-! ## Either order -/

/-- Names that contain `longTerm word c` contain `word`. -/
theorem withName_longTerm {word : List Char} (hword : PlainWord word) (c : SizeClause)
    (files : List Record) :
    withName (some (longTerm word c)) files =
      (withName (some word) files).filter (nameContains (longTerm word c)) := by
  have hlower : lower (longTerm word c) = longTerm word c := by
    rw [longTerm, lower_append_space, hword.lower_eq, lower_lower]
  have hne : longTerm word c ≠ [] := List.append_ne_nil_of_left_ne_nil hword.ne_nil _
  have hempty : word.isEmpty = false := List.isEmpty_eq_false_iff.2 hword.ne_nil
  have hempty' : (longTerm word c).isEmpty = false := List.isEmpty_eq_false_iff.2 hne
  simp only [withName, hempty, hempty', Bool.false_eq_true, if_false, List.filter_filter]
  refine List.filter_congr fun record _ => ?_
  rw [Bool.eq_iff_iff, Bool.and_eq_true, nameContains, nameContains, occursIn_iff_infix,
    occursIn_iff_infix, hlower, hword.lower_eq, iff_self_and]
  intro hlong
  exact (List.prefix_append word _).isInfix.trans hlong

section Order

variable {i : Interpreter} {w : String}

/-- Only `word` can make a move of the search. -/
theorem Says.callsFor_move_iff {word text : List Char} {c : SizeClause} (h : Says word c text) :
    CallsFor .move text ↔ CallsFor .move word := by
  have hwords : ∀ v ∈ Intent.move.triggers, ApartFromClauses v.toList ∧
      ∀ part ∈ openingWords ++ namingWords, ¬ StartsWord v.toList part := by
    decide +kernel
  refine exists_congr fun v => and_congr_right fun hv => ?_
  obtain ⟨hapart, hfront⟩ := hwords v hv
  rw [h.keywords _ hapart.wordLike]
  constructor
  · -- neither the words in front nor the clause start with a word for moving
    rintro ⟨part, hpart, hstarts⟩
    rw [nameFirstParts, ← List.append_assoc, List.mem_append] at hpart
    rcases hpart with hpart | hpart
    · exact absurd hstarts (hfront part hpart)
    · rcases List.mem_pair.1 hpart with rfl | rfl
      · exact hstarts
      · exact absurd hstarts (c.not_startsWord hapart)
  · intro hstarts
    exact ⟨word, by simp [nameFirstParts], hstarts⟩

/-- Of all searches that say the same, each lists the files that one of them finds and that have its
own term. -/
theorem Says.listed_eq {command base : String} {text baseText : List Char} {c : SizeClause}
    (hvocabulary : ∀ v ∈ i.catalogue.vocabulary, WordLike (lower v.toList))
    (hbase : Says w.toList c baseText) (h : Says w.toList c text)
    (htext : commandText (some command) = text) (files : List Record) :
    i.listed command files = (i.found base baseText files).map fun found =>
      if CallsFor .move w.toList then found else withName (nameTerm? text) found := by
  have hfilter : CallsFor .filter text := by
    refine ⟨"show", by decide, ?_⟩
    rw [h.keywords _ (by decide)]
    exact ⟨"show".toList, by simp [nameFirstParts, openingWords], by decide⟩
  subst htext
  rw [listed_eq_found hfilter h.phrase files, h.found_eq hbase hvocabulary command base files]
  simp only [h.callsFor_move_iff]

/-- With its word between quotes, a search for a name and a size lists the same files in either
order, and the quotes change nothing behind the clause. Without quotes the term of `nameFirst` is
the `longTerm`, and the files are those whose names contain it. A word for moving makes both orders
moves, which do not go by names. -/
theorem listed_either_order
    (hvocabulary : ∀ v ∈ i.catalogue.vocabulary, WordLike (lower v.toList))
    (hword : PlainWord w.toList) (c : SizeClause) (files : List Record) :
    (∀ q, isQuote q = true →
      i.listed (nameFirst (inQuotes q w) c) files = i.listed (sizeFirst (inQuotes q w) c) files ∧
        i.listed (sizeFirst (inQuotes q w) c) files = i.listed (sizeFirst w c) files) ∧
      i.listed (nameFirst w c) files = (i.listed (sizeFirst w c) files).map fun found =>
        if CallsFor .move w.toList then found
        else found.filter (nameContains (longTerm w.toList c)) := by
  -- all of the searches find the same files before names count
  obtain ⟨base, hbase⟩ : ∃ base, Says w.toList c base := ⟨_, says_sizeFirst hword .plain c⟩
  have hsize : ∀ {term : String}, Writes w.toList term.toList →
      i.listed (sizeFirst term c) files = (i.found (sizeFirst w c) base files).map fun found =>
        if CallsFor .move w.toList then found else withName (some w.toList) found := by
    intro term hterm
    rw [Says.listed_eq hvocabulary hbase (says_sizeFirst hword hterm c)
      (commandText_sizeFirst hword hterm c), nameTerm?_sizeFirst hword c hterm]
  constructor
  · intro q hq
    have hterm := writes_inQuotes hq w
    have htext : (inQuotes q w).toList = q :: (w.toList ++ [q]) := by simp [inQuotes]
    refine ⟨?_, by rw [hsize hterm, hsize .plain]⟩
    rw [Says.listed_eq hvocabulary hbase (says_nameFirst hword hterm c)
      (commandText_nameFirst hword hterm c), hsize hterm, htext,
      nameTerm?_nameFirst_quoted hword c hq]
  · rw [Says.listed_eq hvocabulary hbase (says_nameFirst hword .plain c)
      (commandText_nameFirst hword .plain c), hsize .plain, nameTerm?_nameFirst_plain hword c]
    generalize i.found (sizeFirst w c) base files = result
    cases result with
    | error fault => rfl
    | ok found =>
        simp only [Except.map, withName_longTerm hword c]
        split
        · rfl
        · rfl

end Order

/-- A clause with a whole number of megabytes. -/
def twoMegabytes : SizeClause where
  text := "larger than 2 mb"
  phrase := ⟨"larger".toList, ['2'], [], .mb⟩
  ascii := by decide
  spelled := .intro [' '] "than".toList [' '] [' '] "mb".toList ⟨"larger", by decide, by decide⟩
    (by decide) (by decide) (by decide) (by decide) (by decide) (by decide) (by decide) (by decide)
    (by decide) (by decide)

/-- Searches for large reports in the sample. -/
theorem listed_either_order_sample :
    (∀ q, isQuote q = true →
      (Interpreter.ofSettings {} ⟨0, none⟩ none).listed
          (nameFirst (inQuotes q "report") twoMegabytes) (sample sampleFolder) =
        (Interpreter.ofSettings {} ⟨0, none⟩ none).listed
          (sizeFirst (inQuotes q "report") twoMegabytes) (sample sampleFolder) ∧
      (Interpreter.ofSettings {} ⟨0, none⟩ none).listed
          (sizeFirst (inQuotes q "report") twoMegabytes) (sample sampleFolder) =
        (Interpreter.ofSettings {} ⟨0, none⟩ none).listed
          (sizeFirst "report" twoMegabytes) (sample sampleFolder)) ∧
      (Interpreter.ofSettings {} ⟨0, none⟩ none).listed
          (nameFirst "report" twoMegabytes) (sample sampleFolder) =
        ((Interpreter.ofSettings {} ⟨0, none⟩ none).listed
          (sizeFirst "report" twoMegabytes) (sample sampleFolder)).map fun found =>
            if CallsFor .move "report".toList then found
            else found.filter (nameContains (longTerm "report".toList twoMegabytes)) :=
  listed_either_order (fun v hv => (vocabulary_standard v hv).1) (by decide) twoMegabytes
    (sample sampleFolder)

/-- Without quotes the order counts: a large `report` is found only if the size comes first. -/
theorem criteria_order_needs_quotes :
    ¬ ∀ (i : Interpreter) (w : String) (c : SizeClause) (files : List Record),
      i.catalogue = Catalogue.standard → PlainWord w.toList →
      i.listed (nameFirst w c) files = i.listed (sizeFirst w c) files := by
  intro hall
  have hsame := hall (Interpreter.ofSettings {} ⟨0, none⟩ none) "report" twoMegabytes
    [⟨"1", "report.pdf", "pdf", 3000000, ⟨0, none⟩, "report.pdf"⟩] rfl (by decide)
  exact absurd hsame (by decide +kernel)

end FileClerk
