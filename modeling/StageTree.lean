import StageTree.Digest.Sha256
import StageTree.Files.Path
import StageTree.Files.Resolve
import StageTree.Files.Volume
import StageTree.Ignore.Expression
import StageTree.Ignore.Pattern
import StageTree.Json.Read
import StageTree.Json.Value
import StageTree.Main
import StageTree.Number.Read
import StageTree.Number.Shortest
import StageTree.Number.Text
import StageTree.Outline.Basic
import StageTree.Outline.Build
import StageTree.Proofs.Addresses
import StageTree.Proofs.Blocks
import StageTree.Proofs.Descent
import StageTree.Proofs.CacheFresh
import StageTree.Proofs.CacheLru
import StageTree.Proofs.Discovery
import StageTree.Proofs.Expansion
import StageTree.Proofs.Flatten
import StageTree.Proofs.Levels
import StageTree.Proofs.LineBreaks
import StageTree.Proofs.Occurrences
import StageTree.Proofs.Positions
import StageTree.Proofs.Reading
import StageTree.Proofs.ReadFaults
import StageTree.Proofs.OutlinePass
import StageTree.Proofs.OutlineWalk
import StageTree.Proofs.RepositoryUrl
import StageTree.Proofs.Scope
import StageTree.Proofs.Unfolding
import StageTree.Proofs.Utf8Reading
import StageTree.Proofs.Walk
import StageTree.Proofs.Wrappers
import StageTree.Raised
import StageTree.Report
import StageTree.Security
import StageTree.Settings
import StageTree.Store.Cache
import StageTree.Text.Blank
import StageTree.Text.Case
import StageTree.Text.Digit
import StageTree.Text.Lines
import StageTree.Text.Quoted
import StageTree.Text.Shape
import StageTree.Text.Str
import StageTree.Text.Unicode.Cased
import StageTree.Text.Unicode.Lower
import StageTree.Text.Unicode.Printable
import StageTree.Text.Unicode.Range
import StageTree.Text.Units
import StageTree.Text.Utf8
import StageTree.Tools.Argument
import StageTree.Tools.Direct
import StageTree.Tools.Discover
import StageTree.Tools.Remote
import StageTree.Tools.Server
import StageTree.Tools.Session
import StageTree.Tools.Workspace
import StageTree.Tree.Basic
import StageTree.Tree.Convert
import StageTree.Tree.Document
import StageTree.Tree.Query
import StageTree.Yaml.Chars
import StageTree.Yaml.Error
import StageTree.Yaml.Event
import StageTree.Yaml.Event.Parse
import StageTree.Yaml.Graph
import StageTree.Yaml.Graph.Compose
import StageTree.Yaml.Mark
import StageTree.Yaml.Resolve
import StageTree.Yaml.Scalar
import StageTree.Yaml.Token
import StageTree.Yaml.Token.Cursor
import StageTree.Yaml.Token.Scalar
import StageTree.Yaml.Token.Scan
import StageTree.Proofs.ComposeSpans
import StageTree.Proofs.ParseOrder
import StageTree.Proofs.ScanMoves
import StageTree.Proofs.ScanOrder
import StageTree.Proofs.ReadNesting
