import BrokerAgent.Decimal.Binary64
import BrokerAgent.Decimal.Shortest
import BrokerAgent.FileTree
import BrokerAgent.Json.Fault
import BrokerAgent.Json.Number
import BrokerAgent.Json.Settings
import BrokerAgent.Json.Skip
import BrokerAgent.Json.Text
import BrokerAgent.Json.Transport
import BrokerAgent.Json.Writer
import BrokerAgent.Log
import BrokerAgent.Main
import BrokerAgent.Options.Basic
import BrokerAgent.Options.CommandLine
import BrokerAgent.Path
import BrokerAgent.Program
import BrokerAgent.Proofs.Decimal.Range
import BrokerAgent.Proofs.Json.Around
import BrokerAgent.Proofs.Json.Grammar
import BrokerAgent.Proofs.Json.Loading
import BrokerAgent.Proofs.Json.Magnitudes
import BrokerAgent.Proofs.Json.Marks
import BrokerAgent.Proofs.Json.Members
import BrokerAgent.Proofs.Json.Mistyped
import BrokerAgent.Proofs.Json.Numbers
import BrokerAgent.Proofs.Json.Positions
import BrokerAgent.Proofs.Json.Reports
import BrokerAgent.Proofs.Json.RoundTrip
import BrokerAgent.Proofs.Json.Shapes
import BrokerAgent.Proofs.Json.Spellings
import BrokerAgent.Proofs.Json.Texts
import BrokerAgent.Proofs.Json.Transports
import BrokerAgent.Proofs.Json.Truncation
import BrokerAgent.Proofs.Json.Values
import BrokerAgent.Proofs.Json.Writing
import BrokerAgent.Proofs.Log
import BrokerAgent.Proofs.Options.CommandLine
import BrokerAgent.Proofs.Options.Level
import BrokerAgent.Proofs.Options.Lists
import BrokerAgent.Proofs.Options.Precedence
import BrokerAgent.Proofs.Program.LogLevel
import BrokerAgent.Proofs.Program.Mistyped
import BrokerAgent.Proofs.Program.Printing
import BrokerAgent.Proofs.Program.Secrecy
import BrokerAgent.Proofs.Session.BrokenHolders
import BrokerAgent.Proofs.Settings.FileNames
import BrokerAgent.Proofs.Settings.FirstBroken
import BrokerAgent.Proofs.Settings.Formats
import BrokerAgent.Proofs.Settings.Rules
import BrokerAgent.Proofs.Settings.Transports
import BrokerAgent.Proofs.Startup.Causes
import BrokerAgent.Proofs.Startup.Confirmation
import BrokerAgent.Proofs.Startup.Events
import BrokerAgent.Proofs.Startup.History
import BrokerAgent.Proofs.Startup.Inputs
import BrokerAgent.Proofs.Startup.Interleaving
import BrokerAgent.Proofs.Startup.Outcome
import BrokerAgent.Proofs.Startup.Step
import BrokerAgent.Proofs.Startup.Truncation
import BrokerAgent.Proofs.Text.Place
import BrokerAgent.Proofs.Text.Quoted
import BrokerAgent.Proofs.Text.Utf8
import BrokerAgent.Proofs.Toml.Agreement
import BrokerAgent.Proofs.Toml.Excerpts
import BrokerAgent.Proofs.Toml.Grammar
import BrokerAgent.Proofs.Toml.Likeness
import BrokerAgent.Proofs.Toml.Lines
import BrokerAgent.Proofs.Toml.Loading
import BrokerAgent.Proofs.Toml.Lockstep
import BrokerAgent.Proofs.Toml.Mistyped
import BrokerAgent.Proofs.Toml.Refused
import BrokerAgent.Proofs.Toml.Replacing
import BrokerAgent.Proofs.Toml.Source
import BrokerAgent.Proofs.Toml.Texts
import BrokerAgent.Proofs.Toml.Tokens
import BrokerAgent.Proofs.Toml.Values
import BrokerAgent.Refusal
import BrokerAgent.Session
import BrokerAgent.Settings.Basic
import BrokerAgent.Settings.Inspect
import BrokerAgent.Settings.Load
import BrokerAgent.Settings.Rules
import BrokerAgent.Shape
import BrokerAgent.SharedRecord
import BrokerAgent.Startup
import BrokerAgent.Text.Digit
import BrokerAgent.Text.Place
import BrokerAgent.Text.Printable
import BrokerAgent.Text.Quoted
import BrokerAgent.Text.Utf8
import BrokerAgent.Toml.Document
import BrokerAgent.Toml.Report
import BrokerAgent.Toml.Scalar
import BrokerAgent.Toml.Settings
import BrokerAgent.Toml.Table
import BrokerAgent.Toml.Text
import BrokerAgent.Toml.Value
import BrokerAgent.Transport
