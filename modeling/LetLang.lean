import LetLang.Token
import LetLang.Lexer
import LetLang.Source
import LetLang.Tree
import LetLang.Policy
import LetLang.Parser.Error
import LetLang.Parser
import LetLang.Lexer.Session
import LetLang.Lexer.Cursor
import LetLang.Parser.Session
import LetLang.Text.Printable
import LetLang.Text.Extender
import LetLang.Text.Quoted
import LetLang.Shell.Echo
import LetLang.Shell.Sink
import LetLang.Shell
import LetLang.Yaml.Mark
import LetLang.Yaml.Scalar.Quoted
import LetLang.Yaml.Scalar.Plain
import LetLang.Yaml.Scalar.Block
import LetLang.Yaml.Tag
import LetLang.Yaml.Scan
import LetLang.Yaml.Node
import LetLang.Yaml.Document
import LetLang.Number.Integer
import LetLang.Number.Binary64
import LetLang.Number.Decimal
import LetLang.Yaml.Value
import LetLang.Settings.Error
import LetLang.Settings.Decoder
import LetLang.Settings
import LetLang.Settings.Yaml
import LetLang.Settings.Lookup
import LetLang.Files
import LetLang.CommandLine.Arguments
import LetLang.CommandLine
import LetLang.Main
import LetLang.Proofs.Stream
import LetLang.Proofs.Phrase
import LetLang.Proofs.Segment
import LetLang.Proofs.Reading
import LetLang.Proofs.Recovery
import LetLang.Proofs.Grammar
import LetLang.Proofs.Leniency
import LetLang.Proofs.Consumption
import LetLang.Proofs.Diagnosis
import LetLang.Proofs.Sources
import LetLang.Proofs.Rendering
import LetLang.Proofs.RoundTrip
import LetLang.Proofs.Resync
import LetLang.Proofs.Layout
import LetLang.Proofs.Queue
import LetLang.Proofs.Integers
import LetLang.Proofs.WellFormed
import LetLang.Proofs.Reproduction
import LetLang.Proofs.Octets
import LetLang.Proofs.Lines
import LetLang.Proofs.Script
import LetLang.Proofs.Session
import LetLang.Proofs.Limits
import LetLang.Proofs.EchoRoundTrip
import LetLang.Proofs.TokenEcho
import LetLang.Proofs.Resumption
import LetLang.Proofs.Interchange
import LetLang.Proofs.Descent
import LetLang.Proofs.Literals
import LetLang.Proofs.EchoDecoding
import LetLang.Proofs.Framing
import LetLang.Proofs.Lookup
import LetLang.Proofs.Decoder
import LetLang.Proofs.Sections
import LetLang.Proofs.Cursor
