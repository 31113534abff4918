import CommentStyle.Calendar
import CommentStyle.CommandLine.Arguments
import CommentStyle.CommandLine.Command
import CommentStyle.CommandLine.Lint
import CommentStyle.CommandLine.Run
import CommentStyle.Comment
import CommentStyle.Config
import CommentStyle.Console.Handler
import CommentStyle.Console.Literal.Constant
import CommentStyle.Console.Literal.Expression
import CommentStyle.Console.Literal.Grammar
import CommentStyle.Console.Literal.Token
import CommentStyle.Console.Literal.Written
import CommentStyle.Console.Markup
import CommentStyle.Console.Style
import CommentStyle.Console.Table
import CommentStyle.Console.Wrap
import CommentStyle.Dump.Record
import CommentStyle.Dump.Text
import CommentStyle.Files.Path
import CommentStyle.Files.Tree
import CommentStyle.Finding
import CommentStyle.Json.Reader
import CommentStyle.Json.Writer
import CommentStyle.Linter
import CommentStyle.Number.Binary64
import CommentStyle.Number.Shortest
import CommentStyle.Number.Word
import CommentStyle.Proofs.Dump.RoundTrip
import CommentStyle.Proofs.Json.RoundTrip
import CommentStyle.Proofs.Json.Scalars
import CommentStyle.Proofs.Linter.Run
import CommentStyle.Proofs.Textblock.History
import CommentStyle.Proofs.Value.Contents
import CommentStyle.Registry
import CommentStyle.Rule
import CommentStyle.Text.Digits
import CommentStyle.Text.Letters
import CommentStyle.Text.Lowercase
import CommentStyle.Text.Names
import CommentStyle.Text.Printable
import CommentStyle.Text.Quoted
import CommentStyle.Text.Similarity
import CommentStyle.Text.Utf8
import CommentStyle.Text.Width
import CommentStyle.Textblock
import CommentStyle.Value
import CommentStyle.Yaml.Content
import CommentStyle.Yaml.Cursor
import CommentStyle.Yaml.Document
import CommentStyle.Yaml.Fault
import CommentStyle.Yaml.Graph
import CommentStyle.Yaml.Merge
import CommentStyle.Yaml.Reader
import CommentStyle.Yaml.Scalar
import CommentStyle.Yaml.ScalarValue
import CommentStyle.Yaml.Tag
import CommentStyle.Yaml.Token
import CommentStyle.Yaml.Writer
import CommentStyle.Main
import CommentStyle.Proofs.Dump.Grammar
import CommentStyle.Proofs.CommandLine.Verdict
import CommentStyle.Proofs.Registry.History
import CommentStyle.Proofs.Text.Utf8
import CommentStyle.Proofs.Json.Limits
import CommentStyle.Proofs.CommandLine.LoadFaults
import CommentStyle.Proofs.Yaml.Cursor
import CommentStyle.Proofs.Yaml.PlainText
import CommentStyle.Proofs.Yaml.QuotedText
import CommentStyle.Proofs.Yaml.Tokens
import CommentStyle.Proofs.Yaml.BlockGrammar
import CommentStyle.Proofs.Yaml.BareWords
import CommentStyle.Proofs.Yaml.WrittenText
import CommentStyle.Proofs.Dump.YamlRoundTrip
import CommentStyle.Proofs.Linter.Isolation
import CommentStyle.Proofs.Registry.EntryPoints
import CommentStyle.Proofs.Registry.Observers
import CommentStyle.Proofs.Console.Markup
import CommentStyle.Proofs.CommandLine.Formats
import CommentStyle.Proofs.Textblock.Concatenation
import CommentStyle.Proofs.Textblock.Edits
import CommentStyle.Proofs.Linter.Setup
import CommentStyle.Proofs.Registry.LoadOrder
import CommentStyle.Proofs.Linter.Capitalized
import CommentStyle.Proofs.Linter.OptionOrder
import CommentStyle.Proofs.Linter.Beginnings
import CommentStyle.Proofs.Config.Search
import CommentStyle.Proofs.Json.Source
import CommentStyle.Proofs.Yaml.LookAhead
import CommentStyle.Proofs.Yaml.FlowTokens
import CommentStyle.Proofs.Yaml.FlowGrammar
import CommentStyle.Proofs.Yaml.LexicalFaults
import CommentStyle.Proofs.Yaml.JsonStrings
import CommentStyle.Proofs.Yaml.JsonWords
import CommentStyle.Proofs.Yaml.JsonTokens
import CommentStyle.Proofs.Yaml.JsonText
import CommentStyle.Proofs.Config.Suffixless
