import PromptTags.Catalog.Library
import PromptTags.Catalog.Record
import PromptTags.Catalog.TagFile
import PromptTags.Catalog.Tree
import PromptTags.CommandLine.Arguments
import PromptTags.CommandLine.Command
import PromptTags.CommandLine.Move
import PromptTags.CommandLine.Run
import PromptTags.Decimal.Binary64
import PromptTags.Decimal.Fixed
import PromptTags.Decimal.Numeral
import PromptTags.Decimal.Shortest
import PromptTags.Files.Disk
import PromptTags.Files.Path
import PromptTags.Json.Catalog
import PromptTags.Json.Number
import PromptTags.Json.Reader
import PromptTags.Json.Tags
import PromptTags.Json.Value
import PromptTags.Json.Writer
import PromptTags.Main
import PromptTags.Prompt.Reader
import PromptTags.Prompt.Token
import PromptTags.Prompt.Writer
import PromptTags.Selection
import PromptTags.Session
import PromptTags.Settings
import PromptTags.Text.Blank
import PromptTags.Text.Digits
import PromptTags.Text.LowerCase
import PromptTags.Text.Pieces
import PromptTags.Text.Quoted
import PromptTags.Text.Ranges
import PromptTags.Text.Search
import PromptTags.Text.Unprintable
import PromptTags.Toml.Reader
import PromptTags.Toml.Scalar
import PromptTags.Toml.Value
import PromptTags.Toml.Writer
import PromptTags.Yaml.Cursor
import PromptTags.Yaml.Document
import PromptTags.Yaml.Node
import PromptTags.Yaml.Scalar
import PromptTags.Yaml.ScalarText
import PromptTags.Yaml.Tag
import PromptTags.Yaml.Token
import PromptTags.Yaml.Value
import PromptTags.Proofs.Prompt.Scan
import PromptTags.Proofs.Prompt.ReaderScan
import PromptTags.Proofs.Prompt.Grammar
import PromptTags.Proofs.Decimal.Doubles
import PromptTags.Proofs.Decimal.Nearest
import PromptTags.Proofs.Decimal.LastPlaces
import PromptTags.Proofs.Prompt.PrintedWeight
import PromptTags.Proofs.Prompt.ReadTags
import PromptTags.Proofs.Prompt.RoundTrip
import PromptTags.Proofs.Decimal.Sums
import PromptTags.Proofs.Selection.Import
import PromptTags.Proofs.Files.Rewriting
import PromptTags.Proofs.Session.Editing
import PromptTags.Proofs.Session.Reopening
import PromptTags.Proofs.Selection.Rereading
import PromptTags.Proofs.Selection.Operations
import PromptTags.Proofs.Session.Lifetime
import PromptTags.Proofs.Catalog.Gate
import PromptTags.Proofs.Catalog.Loading
import PromptTags.Proofs.CommandLine.DataDirectory
import PromptTags.Proofs.Session.Isolation
import PromptTags.Proofs.CommandLine.Reading
import PromptTags.Proofs.CommandLine.Editing
import PromptTags.Proofs.Results
import PromptTags.Proofs.Catalog.Lookups
import PromptTags.Proofs.Session.PaddedNames
import PromptTags.Proofs.Prompt.NamesInText
import PromptTags.Proofs.Prompt.Concatenation
import PromptTags.Proofs.Prompt.Layout
import PromptTags.Proofs.Prompt.DeepGroups
import PromptTags.Proofs.Selection.Moving
import PromptTags.Proofs.Selection.Merging
import PromptTags.Proofs.Selection.Sorting
import PromptTags.Proofs.Selection.Answers
import PromptTags.Proofs.Selection.Toggling
import PromptTags.Proofs.Text.CapitalSigma
import PromptTags.Proofs.Catalog.Searching
import PromptTags.Proofs.Keyed
import PromptTags.Proofs.Text.ByteOrder
import PromptTags.Proofs.Files.Entries
import PromptTags.Proofs.Catalog.BrowseOrder
import PromptTags.Proofs.Catalog.Layouts
import PromptTags.Proofs.Catalog.SearchByFile
import PromptTags.Proofs.CommandLine.Moves
import PromptTags.Proofs.Decimal.Quotients
import PromptTags.Proofs.Json.Numbers
import PromptTags.Proofs.Json.Range
import PromptTags.Proofs.Json.Records
import PromptTags.Proofs.Json.RoundTrip
import PromptTags.Proofs.Settings.Loading
import PromptTags.Proofs.Settings.WrittenForm
import PromptTags.Proofs.Catalog.Outline
import PromptTags.Proofs.Prompt.Cursor
import PromptTags.Proofs.Prompt.CursorReader
