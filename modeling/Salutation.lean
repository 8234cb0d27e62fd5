import Salutation.CommandLine.Option
import Salutation.CommandLine.Parse
import Salutation.CommandLine.Stop
import Salutation.Config
import Salutation.Config.Decode
import Salutation.Config.Discovery
import Salutation.Config.KeyLine
import Salutation.Config.Load
import Salutation.Config.Misfit
import Salutation.Config.Overrides
import Salutation.Config.Print
import Salutation.Config.Schema
import Salutation.Decimal.Binary64
import Salutation.Decimal.Shortest
import Salutation.Delivery.Deliver
import Salutation.Delivery.Record
import Salutation.Delivery.Writer
import Salutation.EditDistance
import Salutation.Failure
import Salutation.Greeting
import Salutation.Json.Reader
import Salutation.Json.Value
import Salutation.Log.Directive
import Salutation.Log.Event
import Salutation.Log.FieldPattern
import Salutation.Log.Filter
import Salutation.Main
import Salutation.Pattern.Atom
import Salutation.Pattern.CharSet
import Salutation.Pattern.Reader
import Salutation.Pattern.Switch
import Salutation.Pattern.Token
import Salutation.Pattern.Tree
import Salutation.Run
import Salutation.Text.Alphanumeric
import Salutation.Text.Blank
import Salutation.Text.Glyphless
import Salutation.Text.Hex
import Salutation.Text.Lines
import Salutation.Text.LowerCase
import Salutation.Text.Numeral
import Salutation.Text.Quoted
import Salutation.Text.Utf8
import Salutation.Toml.Assembly
import Salutation.Toml.Basic
import Salutation.Toml.Document
import Salutation.Toml.Filler
import Salutation.Toml.Key
import Salutation.Toml.Moment
import Salutation.Toml.Number
import Salutation.Toml.Quoted
import Salutation.Toml.Refusal
import Salutation.Toml.Report
import Salutation.Toml.Value
import Salutation.Toml.Writer
import Salutation.World.Environment
import Salutation.World.FileTree
import Salutation.World.Files
import Salutation.World.IoError
import Salutation.World.Path
import Salutation.Proofs.Delivery.Writer
import Salutation.Proofs.Text.Utf8
import Salutation.Proofs.Delivery.Deliver
import Salutation.Proofs.Delivery.Record
import Salutation.Proofs.Delivery.Stream
import Salutation.Proofs.Config.Decode
import Salutation.Proofs.Config.Layers
import Salutation.Proofs.Config.Overrides
import Salutation.Proofs.Config.Reload
import Salutation.Proofs.Resolve
import Salutation.Proofs.Toml.Sameness
import Salutation.Proofs.Toml.Number
import Salutation.Proofs.Config.Fit
import Salutation.Proofs.Config.Unknown
import Salutation.Proofs.Config.Pruning
import Salutation.Proofs.Config.Remainder
import Salutation.Proofs.Config.Plain
import Salutation.Proofs.Config.WarningLine
import Salutation.Proofs.Config.WarningKey
import Salutation.Proofs.Output
import Salutation.Proofs.Undecodable
import Salutation.Proofs.CommandLine.Spelling
import Salutation.Proofs.CommandLine.Verbosity
import Salutation.Proofs.Config.Discovery
import Salutation.Proofs.PrintedConfig
import Salutation.Proofs.PrintedJson
import Salutation.Proofs.Verbatim
import Salutation.Proofs.Delivery.CarryOut
import Salutation.Proofs.LoggedWarnings
import Salutation.Proofs.Config.Accounted
import Salutation.Proofs.Toml.Growth
import Salutation.Proofs.Config.HeaderLine
import Salutation.Proofs.Config.LineSearch
import Salutation.Proofs.Config.LineLayout
import Salutation.Proofs.Config.Suggestion
import Salutation.Proofs.Config.KeyDistance
import Salutation.Proofs.Config.Naming
import Salutation.Proofs.Overriding
