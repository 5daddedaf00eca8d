import SceneScript.Argument
import SceneScript.Command
import SceneScript.Command.Help
import SceneScript.Command.Outcome
import SceneScript.Command.Usage
import SceneScript.Comment
import SceneScript.Convert
import SceneScript.Error
import SceneScript.Event
import SceneScript.Event.Line
import SceneScript.FileTree
import SceneScript.Host
import SceneScript.Intermediate
import SceneScript.Intermediate.ListLiteral
import SceneScript.Json
import SceneScript.Json.Number
import SceneScript.Json.Reader
import SceneScript.Literal
import SceneScript.Main
import SceneScript.PartitionPoint
import SceneScript.Proofs.Argument.Grammar
import SceneScript.Proofs.Argument.Token
import SceneScript.Proofs.Byte.Argument
import SceneScript.Proofs.Byte.Comment
import SceneScript.Proofs.Byte.Search
import SceneScript.Proofs.Byte.Slice
import SceneScript.Proofs.Byte.Template
import SceneScript.Proofs.Byte.Whole
import SceneScript.Proofs.Command.Check
import SceneScript.Proofs.Command.Step
import SceneScript.Proofs.Command.Trace
import SceneScript.Proofs.Comment.Copy
import SceneScript.Proofs.Comment.Cut
import SceneScript.Proofs.Comment.Ending
import SceneScript.Proofs.Comment.Origin
import SceneScript.Proofs.Comment.Place
import SceneScript.Proofs.Comment.Scan
import SceneScript.Proofs.Comment.Seam
import SceneScript.Proofs.Comment.Twice
import SceneScript.Proofs.Convert.Stage
import SceneScript.Proofs.FileTree
import SceneScript.Proofs.FrontEnd
import SceneScript.Proofs.Host
import SceneScript.Proofs.Intermediate.Grammar
import SceneScript.Proofs.Intermediate.RoundTrip
import SceneScript.Proofs.Intermediate.Seam
import SceneScript.Proofs.Json.RoundTrip
import SceneScript.Proofs.Literal.Alphabet
import SceneScript.Proofs.Literal.Language
import SceneScript.Proofs.PartitionPoint
import SceneScript.Proofs.Registry.Layering
import SceneScript.Proofs.Result
import SceneScript.Proofs.Script.Counter
import SceneScript.Proofs.Script.Display
import SceneScript.Proofs.Script.Ending
import SceneScript.Proofs.Script.Name
import SceneScript.Proofs.Script.Refusal
import SceneScript.Proofs.Script.Transparent
import SceneScript.Proofs.Script.WellFormed
import SceneScript.Proofs.Statement
import SceneScript.Proofs.Statement.Json
import SceneScript.Proofs.Table
import SceneScript.Proofs.Template.Escape
import SceneScript.Proofs.Template.Seam
import SceneScript.Proofs.Text.Byte
import SceneScript.Proofs.Text.Cut
import SceneScript.Proofs.Text.Ending
import SceneScript.Proofs.Text.Line
import SceneScript.Proofs.Text.Quote
import SceneScript.Registry
import SceneScript.Registry.Load
import SceneScript.RuleFile.Yaml
import SceneScript.RuleSet
import SceneScript.Script
import SceneScript.Script.File
import SceneScript.Script.Line
import SceneScript.Statement
import SceneScript.Statement.Json
import SceneScript.Table
import SceneScript.Template
import SceneScript.Text.Blank
import SceneScript.Text.Cut
import SceneScript.Text.Hidden
import SceneScript.Text.Line
import SceneScript.Text.Quote
import SceneScript.Text.Visible
import SceneScript.Yaml.Directive
import SceneScript.Yaml.Document
import SceneScript.Yaml.Glyph
import SceneScript.Yaml.Layout
import SceneScript.Yaml.Node
import SceneScript.Yaml.Problem
import SceneScript.Yaml.Property
import SceneScript.Yaml.Scalar.Block
import SceneScript.Yaml.Scalar.Plain
import SceneScript.Yaml.Scalar.Quoted
import SceneScript.Yaml.Scalar.Space
import SceneScript.Yaml.Token
