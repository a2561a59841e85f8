import Commonplace.Text.Alphanumeric
import Commonplace.Text.LowerCase
import Commonplace.Text.Paragraph
import Commonplace.Decimal.Rounded
import Commonplace.Json.Printer
import Commonplace.Json.Reader
import Commonplace.Query.Parser
import Commonplace.Query.Printer
import Commonplace.Time.Window
import Commonplace.Time.Written
import Commonplace.Note.Satisfies
import Commonplace.Search.Cancellation
import Commonplace.Search.Fusion
import Commonplace.Search.Options
import Commonplace.Note.Structured
import Commonplace.Search.Explanation
import Commonplace.Search.Mode
import Commonplace.Yaml.Value
import Commonplace.Note.Reader
import Commonplace.Notebook.Source
import Commonplace.Index.Criterion
import Commonplace.Index.Meaning
import Commonplace.Index.Excerpt
import Commonplace.Index.Results
import Commonplace.Index.Store
import Commonplace.Search.Retrieval
import Commonplace.CommandLine.Arguments
import Commonplace.CommandLine.Command
import Commonplace.CommandLine.Output
import Commonplace.CommandLine.Usage
import Commonplace.Index.Saved
import Commonplace.Main
import Commonplace.Index.Operation
import Commonplace.Proofs.Index.Commits
import Commonplace.Proofs.Index.Steps
import Commonplace.Proofs.Index.Failures
import Commonplace.Proofs.Index.Handles
import Commonplace.Proofs.Index.Paths
import Commonplace.Proofs.Index.Stored
import Commonplace.Proofs.Index.Catalogue
import Commonplace.Proofs.Index.SoleHandle
import Commonplace.Proofs.Index.Patterns
import Commonplace.Proofs.Index.Agreement
import Commonplace.Proofs.Query.Composition
import Commonplace.Proofs.Query.ReadingBack
import Commonplace.Proofs.Index.Selection
import Commonplace.Proofs.Index.Ranking
import Commonplace.Proofs.Search.Fusion
import Commonplace.Proofs.Search.Standing
import Commonplace.Proofs.Query.Shape
import Commonplace.Proofs.Index.Translation
import Commonplace.Proofs.Search.Modes
import Commonplace.Proofs.Index.Conditions
import Commonplace.Proofs.Search.Conditions
import Commonplace.Proofs.Index.Respelling
import Commonplace.Proofs.Index.PathConditions
import Commonplace.Proofs.Index.Directories
import Commonplace.Proofs.Index.DateSearch
import Commonplace.Proofs.Time.ReadingBack
import Commonplace.Proofs.Search.Explaining
import Commonplace.Proofs.Note.LineEndings
import Commonplace.Proofs.Note.HeaderKeys
import Commonplace.Proofs.Index.Ingested
import Commonplace.Proofs.Index.Presence
import Commonplace.Proofs.Query.Spelling
import Commonplace.Proofs.Notebook.Discovery
import Commonplace.Proofs.Query.ByteReading
import Commonplace.Proofs.Query.Positions
import Commonplace.Proofs.Note.Splitting
import Commonplace.Proofs.Time.Keywords
