import FileClerk.Main
import FileClerk.Proofs.Collection.Duplicates
import FileClerk.Proofs.Collection.Select
import FileClerk.Proofs.Collection.Sort
import FileClerk.Proofs.Collection.StableSort
import FileClerk.Proofs.Command.Keyword
import FileClerk.Proofs.Command.SizePhrase
import FileClerk.Proofs.Command.Destination
import FileClerk.Proofs.Interpreter.Branch
import FileClerk.Proofs.Interpreter.Commute
import FileClerk.Proofs.Interpreter.Dispatch
import FileClerk.Proofs.Interpreter.Failure
import FileClerk.Proofs.Interpreter.Idempotence
import FileClerk.Proofs.Interpreter.Session
import FileClerk.Proofs.Text.Lower
import FileClerk.Proofs.Catalogue
import FileClerk.Proofs.Interpreter.TypeWord
import FileClerk.Proofs.Command.SizeGrammar
import FileClerk.Proofs.Command.Strip
import FileClerk.Proofs.Interpreter.Preview
import FileClerk.Proofs.Scan.Exact
import FileClerk.Proofs.Settings.RoundTrip
import FileClerk.Proofs.Settings.Refusal
import FileClerk.Proofs.Interpreter.LetterCase
import FileClerk.Proofs.Interpreter.Deferral
import FileClerk.Proofs.Command.SizeValue
import FileClerk.Proofs.Interpreter.SizeSearch
import FileClerk.Proofs.Interpreter.CriteriaOrder
import FileClerk.Proofs.Interpreter.Search
import FileClerk.Proofs.Command.SizeMatch
import FileClerk.Proofs.Command.Comparator
import FileClerk.Proofs.Interpreter.BracketDestination
import FileClerk.Proofs.Command.PhraseName
import FileClerk.Proofs.Interpreter.PhraseDestination
import FileClerk.Proofs.Interpreter.MoveTarget
import FileClerk.Proofs.Collection.Clusters
import FileClerk.Proofs.Command.TypeWordOrder
import FileClerk.Proofs.Command.WordsLeft
import FileClerk.Proofs.Interpreter.BareExtension
import FileClerk.Proofs.Command.Connective
import FileClerk.Proofs.Interpreter.NameSearch
import FileClerk.Proofs.Interpreter.WordSearch
import FileClerk.Proofs.Scan.Failure
import FileClerk.Proofs.Suggestion
import FileClerk.Proofs.Interpreter.LogRows
import FileClerk.Proofs.ExtraWords
import FileClerk.Proofs.Number.Digits
import FileClerk.Proofs.Number.Nearest
import FileClerk.Proofs.Number.Shortest
import FileClerk.Proofs.Json.Numeral
import FileClerk.Proofs.Json.Literal
import FileClerk.Proofs.Json.RoundTrip
import FileClerk.Proofs.Lookup
import FileClerk.Proofs.Text.Split
import FileClerk.Proofs.Value
import FileClerk.Proofs.Log.Ancestry
import FileClerk.Proofs.Log.Line
import FileClerk.Proofs.Log.Faithful
import FileClerk.Proofs.Rendering.ShownSize
import FileClerk.Proofs.Text.Sigma
import FileClerk.Proofs.Collection.NamePart
import FileClerk.Proofs.Text.Capital
import FileClerk.Proofs.Log.LevelName
