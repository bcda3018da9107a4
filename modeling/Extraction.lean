import Extraction.Command.Arguments
import Extraction.Command.Run
import Extraction.Config
import Extraction.Decimal.Binary
import Extraction.Decimal.Digits
import Extraction.Decimal.Layout
import Extraction.Decimal.Reading
import Extraction.Decimal.Shortest
import Extraction.Document.Display
import Extraction.Document.Entries
import Extraction.Document.Value
import Extraction.Files.Load
import Extraction.Files.Path
import Extraction.Files.Tree
import Extraction.Gzip.Bits
import Extraction.Gzip.Checksum
import Extraction.Gzip.Code
import Extraction.Gzip.Inflate
import Extraction.Gzip.Member
import Extraction.Json.Number
import Extraction.Json.Reader
import Extraction.Json.Text
import Extraction.Json.Writer
import Extraction.Log.Entry
import Extraction.Log.Filter
import Extraction.Log.Level
import Extraction.Main
import Extraction.Output
import Extraction.Proofs.Command.Pipeline
import Extraction.Proofs.Command.Settings
import Extraction.Proofs.Config
import Extraction.Proofs.Decimal.Digits
import Extraction.Proofs.Decimal.Layout
import Extraction.Proofs.Document.Entries
import Extraction.Proofs.Document.Exact
import Extraction.Proofs.Document.Integer
import Extraction.Proofs.Document.Value
import Extraction.Proofs.Files.Agreement
import Extraction.Proofs.Files.Compressed
import Extraction.Proofs.Files.Saved
import Extraction.Proofs.Json.Integer
import Extraction.Proofs.Json.Line
import Extraction.Proofs.Json.Number
import Extraction.Proofs.Json.ReadBack
import Extraction.Proofs.Postcondition
import Extraction.Proofs.Text.Bytes
import Extraction.Proofs.Toml.Document
import Extraction.Proofs.Toml.Text
import Extraction.Proofs.Transition.Account
import Extraction.Proofs.Transition.Addressing
import Extraction.Proofs.Transition.Calls
import Extraction.Proofs.Transition.Chain
import Extraction.Proofs.Transition.Changes
import Extraction.Proofs.Transition.Composition
import Extraction.Proofs.Transition.Descent
import Extraction.Proofs.Transition.Deviation
import Extraction.Proofs.Transition.Faults
import Extraction.Proofs.Transition.Grammar
import Extraction.Proofs.Transition.History
import Extraction.Proofs.Transition.Index
import Extraction.Proofs.Transition.Matching
import Extraction.Proofs.Transition.Meaning
import Extraction.Proofs.Transition.Mode
import Extraction.Proofs.Transition.Order
import Extraction.Proofs.Transition.Place
import Extraction.Proofs.Transition.Position
import Extraction.Proofs.Transition.PreOrder
import Extraction.Proofs.Transition.Projection
import Extraction.Proofs.Transition.Reading
import Extraction.Proofs.Transition.Seek
import Extraction.Proofs.Transition.Shape
import Extraction.Proofs.Transition.Stages
import Extraction.Proofs.Transition.Token
import Extraction.Proofs.Transition.Written
import Extraction.Proofs.Yaml.Entries
import Extraction.Proofs.Yaml.Integer
import Extraction.Proofs.Yaml.Numbers
import Extraction.Proofs.Yaml.Word
import Extraction.Text.Blank
import Extraction.Text.Extending
import Extraction.Text.Hex
import Extraction.Text.Invisible
import Extraction.Text.Letter
import Extraction.Text.Quoted
import Extraction.Text.Split
import Extraction.Text.Uuid
import Extraction.Toml.Moment
import Extraction.Toml.Number
import Extraction.Toml.Reader
import Extraction.Toml.Text
import Extraction.Toml.Value
import Extraction.Transition.Apply
import Extraction.Transition.Assertion
import Extraction.Transition.Batch
import Extraction.Transition.Cursor
import Extraction.Transition.Error
import Extraction.Transition.Expression
import Extraction.Transition.Match
import Extraction.Transition.Record
import Extraction.Transition.Results
import Extraction.Transition.Token
import Extraction.Transition.Walk
import Extraction.Yaml.Anchor
import Extraction.Yaml.Char
import Extraction.Yaml.Document
import Extraction.Yaml.Node
import Extraction.Yaml.Place
import Extraction.Yaml.Reader
import Extraction.Yaml.Scalar
import Extraction.Yaml.Style
import Extraction.Yaml.Token
import Extraction.Yaml.Token.Block
import Extraction.Yaml.Token.Fold
import Extraction.Yaml.Token.Plain
import Extraction.Yaml.Token.Quoted
import Extraction.Yaml.Token.Stream
import Extraction.Yaml.Token.Tag
import Extraction.Yaml.Value
import Extraction.Yaml.Value.OfNode
import Extraction.Yaml.Writer
